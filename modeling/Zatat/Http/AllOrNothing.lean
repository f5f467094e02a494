import Zatat.Http.Routes

/-! # A request is published whole or not at all

Checking and dispatching are separate functions of the source. They agree: an
event that passes the check is dispatched to each of its channels.
-/

namespace Zatat.Http

open List

structure Publication where
  channel : String
  event : String
  data : String
  except : Option String

def publications (prims : Primitives) (ev : EventPayload) : List Publication :=
  (eventChannels ev).map fun channel =>
    ⟨channel, ev.name, dataToString prims ev.data, ev.socketId⟩

/-- All the publications succeeded, in this order, and took the node from the one
state to the other. -/
inductive Dispatched (prims : Primitives) (moments : Nat → Moment) (app : Application) :
    Node → Nat → List Publication → Node → Prop where
  | done (node : Node) (k : Nat) : Dispatched prims moments app node k [] node
  | next {node mid after : Node} {k : Nat} {p : Publication} {rest : List Publication}
      (hHead : node.dispatchMessage prims (moments k) app p.channel p.event p.data p.except =
        (.ok (), mid))
      (hRest : Dispatched prims moments app mid (k + 1) rest after) :
      Dispatched prims moments app node k (p :: rest) after

variable {prims : Primitives} {moments : Nat → Moment} {app : Application}

theorem Dispatched.append {node mid after : Node} {k : Nat} {first second : List Publication}
    (hFirst : Dispatched prims moments app node k first mid)
    (hSecond : Dispatched prims moments app mid (k + first.length) second after) :
    Dispatched prims moments app node k (first ++ second) after := by
  induction hFirst with
  | done => exact hSecond
  | next hHead _ ih =>
    refine .next hHead (ih ?_)
    rw [length_cons, Nat.add_comm _ 1, ← Nat.add_assoc] at hSecond
    exact hSecond

/-! ## Checks that pass -/

theorem forAll_eq_ok {α : Type} {check : α → Except ApiError Unit} {l : List α}
    (h : forAll check l = .ok ()) : ∀ x ∈ l, check x = .ok () := by
  induction l with
  | nil => exact fun _ hx => absurd hx not_mem_nil
  | cons x rest ih =>
    rw [forAll] at h
    cases hCheck : check x with
    | error err =>
      rw [hCheck] at h
      cases h
    | ok u =>
      rw [hCheck] at h
      intro y hy
      rcases mem_cons.mp hy with rfl | hy
      · exact hCheck
      · exact ih h y hy

theorem validatePublish_of_validateChannel {data ch : String}
    (h : validateChannel prims app data ch = .ok ()) :
    validatePublish prims app ch data = .ok () := by
  rw [validateChannel] at h
  split at h
  · cases h
  · split at h
    · cases h
    · split at h
      · cases h
      · split at h
        · cases h
        · assumption

theorem validatePublish_of_validateEventPayload {ev : EventPayload}
    (h : validateEventPayload prims app ev = .ok ()) : ∀ ch ∈ eventChannels ev,
      validatePublish prims app ch (dataToString prims ev.data) = .ok () := by
  rw [validateEventPayload] at h
  split at h
  · cases h
  · dsimp only at h
    split at h
    · cases h
    · split at h
      · cases h
      · exact fun ch hch => validatePublish_of_validateChannel (forAll_eq_ok h ch hch)

/-! ## Dispatch of what was checked -/

section

variable (hEncrypts : ∀ nonce text key, ∃ sealedData,
  prims.encryptPayload nonce text key = .ok sealedData)

include hEncrypts

theorem dispatchMessage_of_validatePublish {channel data : String}
    (h : validatePublish prims app channel data = .ok ()) (node : Node) (moment : Moment)
    (event : String) (except : Option String) :
    ∃ after, node.dispatchMessage prims moment app channel event data except = (.ok (), after) := by
  obtain ⟨sealedData, hSealed⟩ := maybeEncrypt_of_validatePublish hEncrypts h moment.nonce
  rw [Node.dispatchMessage, hSealed]
  exact ⟨_, rfl⟩

theorem dispatchChannels_of_validatePublish (moments : Nat → Moment) (event data : String)
    (except : Option String) {channels : List String}
    (h : ∀ ch ∈ channels, validatePublish prims app ch data = .ok ()) (node : Node) (k : Nat) :
    ∃ after,
      dispatchChannels prims moments app event data except node k channels = (.ok (), after) ∧
      Dispatched prims moments app node k
        (channels.map fun channel => ⟨channel, event, data, except⟩) after := by
  induction channels generalizing node k with
  | nil => exact ⟨node, rfl, .done node k⟩
  | cons channel channels ih =>
    obtain ⟨mid, hHead⟩ := dispatchMessage_of_validatePublish hEncrypts
      (h channel mem_cons_self) node (moments k) event except
    obtain ⟨after, hLoop, hRest⟩ :=
      ih (fun ch hch => h ch (mem_cons_of_mem _ hch)) mid (k + 1)
    refine ⟨after, ?_, .next hHead hRest⟩
    rw [dispatchChannels_cons, hHead]
    exact hLoop

theorem dispatchEvent_of_validateEventPayload (moments : Nat → Moment) {ev : EventPayload}
    (h : validateEventPayload prims app ev = .ok ()) (node : Node) (k : Nat) :
    ∃ after, dispatchEvent prims moments app node k ev = (.ok (), after) ∧
      Dispatched prims moments app node k (publications prims ev) after :=
  dispatchChannels_of_validatePublish hEncrypts moments ev.name _ ev.socketId
    (validatePublish_of_validateEventPayload h) node k

theorem dispatchBatch_of_validateEventPayload (moments : Nat → Moment) (now : Instant)
    {batch : List EventPayload}
    (h : ∀ ev ∈ batch, validateEventPayload prims app ev = .ok ()) (node : Node) (k : Nat)
    (out : List Value) :
    ∃ answer after, dispatchBatch prims moments now app node k out batch = (.ok answer, after) ∧
      Dispatched prims moments app node k (batch.flatMap (publications prims)) after := by
  induction batch generalizing node k out with
  | nil => exact ⟨out, node, rfl, .done node k⟩
  | cons ev batch ih =>
    obtain ⟨mid, hHead, hFirst⟩ := dispatchEvent_of_validateEventPayload hEncrypts moments
      (h ev mem_cons_self) node k
    obtain ⟨answer, after, hLoop, hRest⟩ := ih (fun e he => h e (mem_cons_of_mem _ he)) mid
      (k + (eventChannels ev).length) (out ++ [batchEntry now app mid ev])
    refine ⟨answer, after, ?_, ?_⟩
    · rw [dispatchBatch, hHead]
      exact hLoop
    · refine hFirst.append ?_
      rw [publications, length_map]
      exact hRest

/-- An answer with an error status leaves the node as it was; any other answer means
that every event was dispatched to each of its channels, in order. -/
theorem publish_all_or_nothing (moments : Nat → Moment) (now : Instant) (app : Application)
    (node : Node) :
    (∀ ev, (∃ err, publishEvent prims moments now app node ev = (.error err, node)) ∨
      ∃ body after, publishEvent prims moments now app node ev = (.ok body, after) ∧
        Dispatched prims moments app node 0 (publications prims ev) after) ∧
    (∀ batch, (∃ err, publishBatchEvents prims moments now app node batch = (.error err, node)) ∨
      ∃ body after, publishBatchEvents prims moments now app node batch = (.ok body, after) ∧
        Dispatched prims moments app node 0 (batch.flatMap (publications prims)) after) ∧
    (∀ ev, validateEventPayload prims app ev = .ok () → ∀ channel ∈ eventChannels ev, ∀ moment,
      (node.dispatchMessage prims moment app channel ev.name (dataToString prims ev.data)
        ev.socketId).1 = .ok ()) := by
  refine ⟨fun ev => ?_, fun batch => ?_, fun ev hValid channel hChannel moment => ?_⟩
  · rw [publishEvent]
    cases hValid : validateEventPayload prims app ev with
    | error err => exact .inl ⟨err, rfl⟩
    | ok u =>
      obtain ⟨after, hDispatch, hAll⟩ := dispatchEvent_of_validateEventPayload hEncrypts
        moments hValid node 0
      refine .inr ?_
      rw [hDispatch]
      dsimp only
      cases ev.info with
      | none | some => exact ⟨_, after, rfl, hAll⟩
  · rw [publishBatchEvents]
    split
    · exact .inl ⟨_, rfl⟩
    · cases hValid : forAll (validateEventPayload prims app) batch with
      | error err => exact .inl ⟨err, rfl⟩
      | ok u =>
        obtain ⟨answer, after, hDispatch, hAll⟩ := dispatchBatch_of_validateEventPayload
          hEncrypts moments now (forAll_eq_ok hValid) node 0 []
        refine .inr ?_
        rw [hDispatch]
        dsimp only
        split
        · exact ⟨_, after, rfl, hAll⟩
        · exact ⟨_, after, rfl, hAll⟩
  · obtain ⟨after, hDispatch⟩ := dispatchMessage_of_validatePublish hEncrypts
      (validatePublish_of_validateEventPayload hValid channel hChannel) node moment ev.name
      ev.socketId
    rw [hDispatch]

end

def exampleEvent : EventPayload where
  name := "news"
  data := .string "hello"
  channels := some ["cache-room", "#server-to-user-alice"]
  channel := none
  socketId := none
  info := none

theorem example_event_published_whole : ∃ body after,
      publishEvent examplePrims (fun k => ⟨0, k⟩) 0 exampleApp
        (Node.new "n1" true fun _ => some exampleApp) exampleEvent = (.ok body, after) ∧
      Dispatched examplePrims (fun k => ⟨0, k⟩) exampleApp
        (Node.new "n1" true fun _ => some exampleApp)
        0 (publications examplePrims exampleEvent) after := by
  have hEncrypts : ∀ nonce text key, ∃ sealedData,
      examplePrims.encryptPayload nonce text key = .ok sealedData :=
    fun _ _ _ => ⟨exampleSealed, rfl⟩
  rcases (publish_all_or_nothing hEncrypts (fun k => ⟨0, k⟩) 0 exampleApp
    (Node.new "n1" true fun _ => some exampleApp)).1 exampleEvent with ⟨err, hErr⟩ | hWhole
  · have hOk : (publishEvent examplePrims (fun k => ⟨0, k⟩) 0 exampleApp
        (Node.new "n1" true fun _ => some exampleApp) exampleEvent).1.isOk = true := by decide
    rw [hErr] at hOk
    cases hOk
  · exact hWhole

end Zatat.Http
