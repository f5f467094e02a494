import Zatat.Ws.Serving

/-! # What encrypted channels carry

A fleet of servers. Everything one of them put on the bus can reach any of them,
at any time, in any order and any number of times. Event data for an encrypted
channel is to look encrypted wherever it goes: to a member, into a cache or onto
the bus.
-/

namespace Zatat.Secrecy

open Function FiniteMap Transition Serving List ChannelKind

def MayCarry (prims : Primitives) (channel data : String) : Prop :=
  startsWith channel "private-encrypted-" = true → looksEncrypted prims data = true

def sealing (prims : Primitives) : Footprint where
  sends x := (∀ payload, x.item = .text (.event payload) →
      MayCarry prims payload.channel payload.data) ∧
    ∀ event data channel user, x.item = .text (.clientEvent event data channel user) →
      MayCarry prims channel data
  publishes _ payload := (∀ origin channel event data except,
      payload = .Message origin channel event data except → MayCarry prims channel data) ∧
    ∀ origin channel event data sender user,
      payload = .ClientEvent origin channel event data sender user → MayCarry prims channel data
  stores _ channel payload := payload.channel = channel ∧ MayCarry prims channel payload.data
  moves _ _ _ := True
  binds _ := True
  sends_protocol x hx := by
    refine ⟨fun payload hItem => ?_, fun event data channel user hItem => ?_⟩
    · rw [hItem] at hx
      cases hx
    · rw [hItem] at hx
      cases hx
  publishes_protocol a payload hp := by
    refine ⟨?_, ?_⟩
    · rintro origin channel event data except rfl
      cases hp
    · rintro origin channel event data sender user rfl
      cases hp

/-- Nothing the node handed out, stored or published is plaintext of an encrypted channel. -/
structure Sealed (prims : Primitives) (node : Node) : Prop where
  sent : ∀ x ∈ node.sent, (sealing prims).sends x
  published : ∀ x ∈ node.payloads, (sealing prims).publishes x.1 x.2
  stored : ∀ a c p, node.storedPayload a c = some p → (sealing prims).stores a c p

theorem Sealed.within {prims : Primitives} {node after : Node} (h : Sealed prims node)
    (hWithin : Node.Within (sealing prims) node after) : Sealed prims after := by
  obtain ⟨-, ⟨sent, hSent, hSends⟩, published, hPublished, hPublishes⟩ := hWithin.server
  refine ⟨fun x hx => ?_, fun x hx => ?_, fun a c p hp => ?_⟩
  · rw [hSent] at hx
    exact (mem_append.mp hx).elim (h.sent x) (hSends x)
  · rw [hPublished] at hx
    exact (mem_append.mp hx).elim (h.published x) (hPublishes x)
  · exact (hWithin.stored hp).elim (h.stored a c p) id

/-! ## A fleet -/

variable {ι : Type} [DecidableEq ι]

inductive FleetAction (ι : Type) where
  /-- A server acts on its own. -/
  | act (i : ι) (action : Action)
  /-- A server handles the `k`-th message that a server published. -/
  | deliver (i origin : ι) (k : Nat) (now : Instant)

def isIncoming : Action → Bool
  | .incoming _ _ => true
  | _ => false

def fleetStep (prims : Primitives) (fleet : ι → ServerState) :
    FleetAction ι → Option (ι → ServerState)
  | .act i action =>
    if isIncoming action then none
    else (step prims (fleet i) action).map (update fleet i)
  | .deliver i origin k now =>
    (fleet origin).node.dispatcher.published[k]?.map fun env =>
      update fleet i
        { fleet i with node := (fleet i).node.handleIncoming now env }

/-- A client event that is relayed on an encrypted channel looks encrypted. -/
def WhispersSealed (prims : Primitives) (fleet : ι → ServerState) : FleetAction ι → Prop
  | .act i (.frame _ s text) =>
    ∀ conn channel event data ch, (fleet i).connections.lookup s = some conn →
      Relays prims (fleet i).node conn text channel event data ch → MayCarry prims channel data
  | _ => True

/-! ## One step -/

section

variable {prims : Primitives} {nonce : Nat} {text sealedData a : String} {node : Node}
  {σ : ServerState}

theorem mayCarry_user (userId data : String) :
    MayCarry prims ("#server-to-user-" ++ userId) data := by
  intro hStarts
  have hUser : startsWith ("#server-to-user-" ++ userId) "#server-to-user-" = true := by
    apply isPrefixOf_iff_prefix.mpr
    rw [String.toList_append]
    exact prefix_append ..
  rw [startsWith_disjoint (by decide) (by decide) hUser] at hStarts
  cases hStarts

def EncryptsToObjects (prims : Primitives) : Prop :=
  ∀ nonce text key sealedData, prims.encryptPayload nonce text key = .ok sealedData →
    ∃ v nonceText ciphertext, prims.fromStr sealedData = some v ∧
      v.get "nonce" = some (.string nonceText) ∧ v.get "ciphertext" = some (.string ciphertext)

theorem looksEncrypted_encryptPayload (hObjects : EncryptsToObjects prims) {key : SecretKey}
    (h : prims.encryptPayload nonce text key = .ok sealedData) :
    looksEncrypted prims sealedData = true := by
  obtain ⟨v, nonceText, ciphertext, hParsed, hNonce, hCiphertext⟩ :=
    hObjects nonce text key sealedData h
  rw [looksEncrypted, hParsed]
  dsimp only
  rw [hNonce, hCiphertext]
  rfl

theorem mayCarry_maybeEncrypt (hObjects : EncryptsToObjects prims) {app : Application}
    {channel data : String}
    (h : maybeEncrypt prims nonce app (fromName channel) channel data =
      .ok sealedData) : MayCarry prims channel sealedData := by
  intro hStarts
  rw [maybeEncrypt, isEncrypted_fromName, hStarts] at h
  split at h
  · rename_i hLooks
    cases h
    simpa using hLooks
  · split at h
    · cases h
    · split at h
      · cases h
      · split at h
        · cases h
        · rename_i hEncrypted
          cases h
          exact looksEncrypted_encryptPayload hObjects hEncrypted

theorem publishable_maybeEncrypt (hObjects : EncryptsToObjects prims) (app : Application) :
    PublishWithin prims (sealing prims) app := by
  intro nonce channel event data sealedData h
  have hCarry := mayCarry_maybeEncrypt hObjects h
  refine ⟨fun s => ⟨?_, ?_⟩, ⟨rfl, hCarry⟩, fun origin except => ⟨?_, ?_⟩⟩
  · rintro payload ⟨⟩
    exact hCarry
  · rintro event' data' channel' user ⟨⟩
  · rintro origin' channel' event' data' except' ⟨⟩
    exact hCarry
  · rintro origin' channel' event' data' sender user ⟨⟩

theorem userEventWithin_sealing : UserEventWithin (sealing prims) := by
  intro a userId event data
  refine ⟨fun s => ⟨?_, ?_⟩, fun origin => ⟨?_, ?_⟩⟩
  · rintro payload ⟨⟩
    exact mayCarry_user userId data
  · rintro event' data' channel' user ⟨⟩
  · rintro origin' channel' event' data' except' ⟨⟩
  · rintro origin' channel' event' data' sender user ⟨⟩

theorem admits_of_publishes {payload : ScalingPayload} (h : (sealing prims).publishes a payload) :
    (sealing prims).Admits a payload := by
  cases payload with
  | Message origin channel event data except =>
    have hCarry : MayCarry prims channel data := h.1 _ _ _ _ _ rfl
    refine ⟨fun s => ⟨?_, ?_⟩, ⟨rfl, hCarry⟩⟩
    · rintro payload ⟨⟩
      exact hCarry
    · rintro event' data' channel' user ⟨⟩
  | ClientEvent origin channel event data sender userId =>
    have hCarry : MayCarry prims channel data := h.2 _ _ _ _ _ _ rfl
    rintro s user -
    refine ⟨?_, ?_⟩
    · rintro payload ⟨⟩
    · rintro event' data' channel' user' ⟨⟩
      exact hCarry
  | UserEvent origin userId event data => exact (userEventWithin_sealing a userId event data).1
  | _ => trivial

theorem Sealed.sendsEvent (h : Sealed prims node) {c : String} {p : EventPayload}
    (hp : node.storedPayload a c = some p) : (sealing prims).SendsEvent a p := by
  obtain ⟨hChannel, hCarry⟩ := h.stored a c p hp
  intro s
  refine ⟨?_, ?_⟩
  · rintro payload ⟨⟩
    rw [hChannel]
    exact hCarry
  · rintro event data channel user ⟨⟩

theorem sealed_act (hObjects : EncryptsToObjects prims) {σ' : ServerState} {action : Action}
    (h : Sealed prims σ.node) (hLocal : ¬ isIncoming action = true)
    (hFrame : ∀ now s text conn, action = .frame now s text →
      σ.connections.lookup s = some conn → RelayWithin prims (sealing prims) σ.node conn text)
    (hStep : step prims σ action = some σ') : Sealed prims σ'.node := by
  have hCovers : Covers prims (sealing prims) σ action :=
    { publish := publishable_maybeEncrypt hObjects
      userEvent := userEventWithin_sealing
      cached := fun a c p hp => h.sendsEvent hp
      incoming := fun now env hAction => absurd (by rw [hAction]; rfl) hLocal
      frame := fun now s text conn hAction hConn =>
        ⟨fun _ _ => trivial, fun _ => trivial, hFrame now s text conn hAction hConn⟩
      disconnect := fun _ _ _ _ _ => ⟨fun _ _ => trivial, fun _ => trivial⟩
      connect := fun _ _ _ _ => trivial }
  cases action with
  | reload table =>
    cases hStep
    exact ⟨h.sent, h.published, h.stored⟩
  | _ => exact h.within (within_step hCovers (fun _ hReload => by cases hReload) hStep)

theorem relayWithin_sealing {conn : Connection}
    (h : ∀ channel event data ch, Relays prims σ.node conn text channel event data ch →
      MayCarry prims channel data) : RelayWithin prims (sealing prims) σ.node conn text := by
  intro channel event data ch hRelays
  have hCarry := h channel event data ch hRelays
  refine ⟨fun s => ⟨?_, ?_⟩, fun origin => ⟨?_, ?_⟩⟩
  · rintro payload ⟨⟩
  · rintro event' data' channel' user ⟨⟩
    exact hCarry
  · rintro origin' channel' event' data' except ⟨⟩
  · rintro origin' channel' event' data' sender user ⟨⟩
    exact hCarry

theorem sealed_deliver {origin : Node} (h : Sealed prims node) (hOrigin : Sealed prims origin)
    {k : Nat} {env : ScalingEnvelope} (hEnv : origin.dispatcher.published[k]? = some env)
    (now : Instant) : Sealed prims (node.handleIncoming now env) := by
  refine h.within (node.within_handleIncoming now fun app _ => admits_of_publishes ?_)
  exact hOrigin.published (env.app.id, env.payload)
    (mem_map_of_mem (mem_of_getElem? hEnv))

theorem sealed_fleetStep (hObjects : EncryptsToObjects prims) (fleet : ι → ServerState)
    (label : FleetAction ι) (fleet' : ι → ServerState)
    (h : ∀ i, Sealed prims (fleet i).node) (hCond : WhispersSealed prims fleet label)
    (hStep : fleetStep prims fleet label = some fleet') (j : ι) : Sealed prims (fleet' j).node := by
  have hUpdate {i : ι} {σ' : ServerState} (hNew : Sealed prims σ'.node) :
      Sealed prims (update fleet i σ' j).node := by
    rw [update_apply]
    split
    · exact hNew
    · exact h j
  cases label with
  | deliver i origin k now =>
    obtain ⟨env, hEnv, rfl⟩ := Option.map_eq_some_iff.mp hStep
    exact hUpdate (sealed_deliver (h i) (h origin) hEnv now)
  | act i action =>
    rw [fleetStep] at hStep
    split at hStep
    · cases hStep
    · rename_i hLocal
      obtain ⟨σ', hAct, rfl⟩ := Option.map_eq_some_iff.mp hStep
      refine hUpdate (sealed_act hObjects (h i) hLocal ?_ hAct)
      rintro now s text conn rfl hConn
      exact relayWithin_sealing fun channel event data ch =>
        hCond conn channel event data ch hConn

theorem sealed_new (nodeId : String) (scaling : Bool) (table : AppTable) :
    Sealed prims (new nodeId scaling table).node where
  sent x hx := absurd hx not_mem_nil
  published x hx := absurd hx not_mem_nil
  stored a c p hp := by cases hp

end

/-- As long as the client events on encrypted channels look encrypted, nothing else
gets onto them; and a refused publication leaves the node as it was. -/
theorem encrypted_channels_sealed (prims : Primitives) (hObjects : EncryptsToObjects prims)
    (nodeIds : ι → String) (scaling : ι → Bool) (tables : ι → AppTable) (run : List (FleetAction ι))
    (hRun : EachStep (fleetStep prims) (WhispersSealed prims)
      (fun i => new (nodeIds i) (scaling i) (tables i)) run) :
    Always (fleetStep prims) (fun fleet => ∀ i, Sealed prims (fleet i).node)
      (fun i => new (nodeIds i) (scaling i) (tables i)) run ∧
    ∀ (node : Node) moment app channel event data except err,
      (node.dispatchMessage prims moment app channel event data except).1 = .error err →
        (node.dispatchMessage prims moment app channel event data except).2 = node := by
  refine ⟨always_of_step (sealed_fleetStep hObjects) (fun i => sealed_new _ _ _) hRun, ?_⟩
  intro node moment app channel event data except err hErr
  rw [Node.dispatchMessage] at hErr ⊢
  split at hErr
  · rfl
  · cases hErr

def keyedTable (id : String) : Option Application :=
  if id = "app" then some { exampleApp with encryptionMasterKey := some "master" } else none

theorem keyedTable_ids (id : String) (app : Application) (h : keyedTable id = some app) :
    app.id = id := by
  obtain ⟨rfl, ⟨⟩⟩ := Option.ite_none_right_eq_some.mp h
  rfl

def keyedFleet (i : Bool) : ServerState :=
  new (if i then "n2" else "n1") true ⟨keyedTable, keyedTable_ids⟩

def sealedPrims : Primitives :=
  { examplePrims with
    decodeBase64 := fun _ => some (replicate 32 0)
    parseInbound := fun text =>
      if text = "sealed whisper" then
        some ⟨"client-typing", .string exampleSealed, some "private-encrypted-room"⟩
      else exampleInbound text }

theorem encryptsToObjects_sealedPrims : EncryptsToObjects sealedPrims := by
  intro nonce text key sealedData h
  cases h
  exact ⟨_, "n", "c", rfl, rfl, rfl⟩

def plainEvent : Http.EventPayload :=
  ⟨"news", .string "hello", some ["private-encrypted-room", "private-encrypted-cache-room"],
    none, none, none⟩

/-- Both nodes have members of an encrypted channel. One of them sends a sealed client event,
then a plain event is published to it and to a cache channel; the other node hears of both. -/
def sealedRun : List (FleetAction Bool) :=
  [.act false (.connect "app" "1.1"), .act false (.connect "app" "2.2"),
    .act false (.frame 0 "1.1" "join"), .act false (.frame 0 "2.2" "join too"),
    .act true (.connect "app" "2.2"), .act true (.frame 0 "2.2" "join too"),
    .act false (.frame 0 "1.1" "sealed whisper"),
    .act false (.request "app" (.publishEvent (fun k => ⟨0, k⟩) 0 plainEvent)),
    .deliver true false 2 0, .deliver true false 3 0, .deliver true false 4 0]

theorem whispersSealed_frame {fleet : Bool → ServerState} {text : String}
    (hText : ∀ frame ∈ sealedPrims.parseInbound text, startsWith frame.event "client-" = true →
      dataText sealedPrims frame.data = exampleSealed) (i : Bool) (now : Instant) (s : String) :
    WhispersSealed sealedPrims fleet (.act i (.frame now s text)) := by
  intro conn channel event data ch _ hRelays _
  obtain ⟨frame, hParse, hEvent, -, hData⟩ := hRelays.frame
  rw [← hData, hText frame hParse (hEvent ▸ hRelays.client)]
  decide

def eventsIn (sent : List Sent) : List (String × String × String) :=
  sent.filterMap fun x => match x.item with
    | .text (.clientEvent _ data channel _) => some (x.socket, channel, data)
    | .text (.event payload) => some (x.socket, payload.channel, payload.data)
    | _ => none

theorem sealedRun_sealed :
    EachStep (fleetStep sealedPrims) (WhispersSealed sealedPrims) keyedFleet sealedRun ∧
    Always (fleetStep sealedPrims) (fun fleet => ∀ i, Sealed sealedPrims (fleet i).node)
      keyedFleet sealedRun ∧
    ∃ fleet, exec (fleetStep sealedPrims) keyedFleet sealedRun = some fleet ∧
      eventsIn (fleet false).node.sent = [("2.2", "private-encrypted-room", exampleSealed),
        ("2.2", "private-encrypted-room", exampleSealed),
        ("1.1", "private-encrypted-room", exampleSealed)] ∧
      eventsIn (fleet true).node.sent = [("2.2", "private-encrypted-room", exampleSealed),
        ("2.2", "private-encrypted-room", exampleSealed)] ∧
      (fleet true).node.storedPayload "app" "private-encrypted-cache-room" =
        some ⟨"news", exampleSealed, "private-encrypted-cache-room"⟩ ∧
      ((fleet true).node.dispatchMessage sealedPrims ⟨0, 0⟩ exampleApp "private-encrypted-room"
        "news" "hello" none).1 = .error .MissingMasterKey ∧
      ((fleet true).node.dispatchMessage sealedPrims ⟨0, 0⟩ exampleApp "private-encrypted-room"
        "news" "hello" none).2 = (fleet true).node := by
  have hRun : EachStep (fleetStep sealedPrims) (WhispersSealed sealedPrims) keyedFleet
      sealedRun := by
    refine .of_forall_mem (fun label hMem fleet => ?_) _
    simp only [sealedRun, mem_cons, not_mem_nil, or_false] at hMem
    rcases hMem with rfl | rfl | rfl | rfl | rfl | rfl | rfl | rfl | rfl | rfl | rfl <;>
      first | trivial | exact whispersSealed_frame (by decide) _ _ _
  obtain ⟨hSealed, hRefused⟩ := encrypted_channels_sealed sealedPrims
    encryptsToObjects_sealedPrims _ _ _ sealedRun hRun
  have hResult : (exec (fleetStep sealedPrims) keyedFleet sealedRun).map (fun fleet =>
      (eventsIn (fleet false).node.sent, eventsIn (fleet true).node.sent,
        (fleet true).node.storedPayload "app" "private-encrypted-cache-room")) =
      some ([("2.2", "private-encrypted-room", exampleSealed),
        ("2.2", "private-encrypted-room", exampleSealed),
        ("1.1", "private-encrypted-room", exampleSealed)],
        [("2.2", "private-encrypted-room", exampleSealed),
        ("2.2", "private-encrypted-room", exampleSealed)],
        some ⟨"news", exampleSealed, "private-encrypted-cache-room"⟩) := by decide +kernel
  obtain ⟨fleet, hFleet, hFacts⟩ := Option.map_eq_some_iff.mp hResult
  simp only [Prod.mk.injEq] at hFacts
  have hError : ((fleet true).node.dispatchMessage sealedPrims ⟨0, 0⟩ exampleApp
      "private-encrypted-room" "news" "hello" none).1 = .error .MissingMasterKey := by rfl
  exact ⟨hRun, hSealed, fleet, hFleet, hFacts.1, hFacts.2.1, hFacts.2.2, hError,
    hRefused _ _ _ _ _ _ _ _ hError⟩

def exampleFleet (i : Bool) : ServerState :=
  new (if i then "n2" else "n1") true ⟨exampleTable, exampleTable_ids⟩

/-- A member of an encrypted channel sends a client event with plain data. -/
def whisperRun : List (FleetAction Bool) :=
  [.act false (.connect "app" "1.1"), .act false (.connect "app" "2.2"),
    .act false (.frame 0 "1.1" "join"), .act false (.frame 0 "2.2" "join too"),
    .act false (.frame 0 "1.1" "whisper")]

theorem whisper_leaks : (exec (fleetStep examplePrims) exampleFleet whisperRun).map (fun fleet =>
      eventsIn (fleet false).node.sent) = some [("2.2", "private-encrypted-room", "hello")] ∧
    looksEncrypted examplePrims "hello" = false ∧
    ∃ fleet, exec (fleetStep examplePrims) exampleFleet whisperRun = some fleet ∧
      ¬ ∀ i, Sealed examplePrims (fleet i).node := by
  have hSent : (exec (fleetStep examplePrims) exampleFleet whisperRun).map (fun fleet =>
      eventsIn (fleet false).node.sent) =
        some [("2.2", "private-encrypted-room", "hello")] := by decide +kernel
  refine ⟨hSent, by decide, ?_⟩
  obtain ⟨fleet, hRun, hEvents⟩ := Option.map_eq_some_iff.mp hSent
  refine ⟨fleet, hRun, fun hSealed => ?_⟩
  have hMem : ("2.2", "private-encrypted-room", "hello") ∈
      eventsIn (fleet false).node.sent := by
    rw [hEvents]
    exact List.mem_singleton.mpr rfl
  obtain ⟨x, hx, hItem⟩ := List.mem_filterMap.mp hMem
  split at hItem
  · rename_i event data channel user hText
    have hParts := Option.some.inj hItem
    simp only [Prod.mk.injEq] at hParts
    obtain ⟨-, rfl, rfl⟩ := hParts
    have hCarry := ((hSealed false).sent x hx).2 _ _ _ _ hText (by decide)
    exact absurd hCarry (by decide)
  · rename_i payload hText
    have hParts := Option.some.inj hItem
    simp only [Prod.mk.injEq] at hParts
    have hCarry := ((hSealed false).sent x hx).1 _ hText (by rw [hParts.2.1]; decide)
    rw [hParts.2.2] at hCarry
    exact absurd hCarry (by decide)
  · cases hItem

end Zatat.Secrecy
