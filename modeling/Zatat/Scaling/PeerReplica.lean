import Zatat.Channels.Counts
import Zatat.Lib.Lossy
import Zatat.Scaling.OtherMessages

/-! # One node's counts and users as a peer sees them

A sender and a receiver joined by a bus that keeps the order but may lose any message.
On the sender every change is followed by its announcement under the lock of the channel
or of the user: the change, the number and the queueing are three steps, between which
anything else may happen. The heartbeat holds no lock; it takes a number, then reads,
then queues. A channel or a user is read at a moment of its own, so a run may have the
moments at which a walk through the maps really passes over each of them.
-/

namespace Zatat

open Function FiniteMap Node AppChannels Option ChannelKind

namespace PeerReplica

open EventDispatcher Lossy Transition

/-! ## What the receiver makes of a message -/

def countMessage (env : ScalingEnvelope) : Message String Nat :=
  match env.payload with
  | .SubscriptionCount _ c count _ => .live c env.seq count
  | .ChannelCountSnapshot _ counts => .snapshot env.seq (Node.snapshotCount counts)
  | _ => .other

def sessionMessage (env : ScalingEnvelope) : Message String Bool :=
  match env.payload with
  | .UserOnline _ u => .live u env.seq true
  | .UserOffline _ u => .live u env.seq false
  | .UserSessionSnapshot _ userIds => .snapshot env.seq fun u => decide (u ∈ userIds)
  | _ => .other

theorem countMessage_other (app : Application) (seq : Nat) {payload : ScalingPayload}
    (hCount : payload.isCount = false) : countMessage (envelope app seq payload) = .other := by
  cases payload with
  | SubscriptionCount | ChannelCountSnapshot => cases hCount
  | _ => rfl

theorem sessionMessage_other (app : Application) (seq : Nat) {payload : ScalingPayload}
    (hSession : payload.isSession = false) :
    sessionMessage (envelope app seq payload) = .other := by
  cases payload with
  | UserOnline | UserOffline | UserSessionSnapshot => cases hSession
  | _ => rfl

def IsFrom (app : Application) (n : String) (env : ScalingEnvelope) : Prop :=
  ∃ seq payload, 0 < seq ∧ env = envelope app seq payload ∧
    (payload.isCount = true ∨ payload.isSession = true → payloadNodeId payload = some n)

section

variable {app : Application} {n : String} {receiver : Node} {env : ScalingEnvelope}

theorem receives_count (hTable : receiver.config app.id = some app)
    (hOther : n ≠ receiver.dispatcher.nodeId) (hEnv : IsFrom app n env) (now : Instant) :
    Receives (countMessage env) (receiver.countCopy app.id n)
      ((receiver.handleIncoming now env).countCopy app.id n) := by
  obtain ⟨seq, payload, hSeq, rfl, hOrigin⟩ := hEnv
  have hSame := (receiver.sameCopies_seePeer now payload).counts app.id n
  have hPeer : n ≠ (receiver.seePeer now payload).dispatcher.nodeId := by
    rw [(receiver.seePeer_same now payload).2.2.2.1]
    exact hOther
  rw [handleIncoming_envelope hTable, ← hSame]
  cases hCount : payload.isCount with
  | true =>
    cases payload with
    | SubscriptionCount origin c count vacatedWithheld =>
      obtain rfl : origin = n := Option.some.inj (hOrigin (.inl rfl))
      rw [handlePayload_of_peer _ _ _ rfl hPeer]
      exact countCopy_subscriptionCount _ now app origin c count vacatedWithheld hSeq
    | ChannelCountSnapshot origin counts =>
      obtain rfl : origin = n := Option.some.inj (hOrigin (.inl rfl))
      rw [handlePayload_of_peer _ _ _ rfl hPeer]
      exact fun c => handles_channelCountSnapshot _ now app origin counts hSeq c
    | _ => cases hCount
  | false =>
    rw [countMessage_other app seq hCount]
    cases hSession : payload.isSession with
    | true => exact countCopy_handlePayload_session _ now app seq hSession app.id n
    | false => exact (sameCopies_handlePayload _ now app seq hCount hSession).counts app.id n

theorem receives_session (hTable : receiver.config app.id = some app)
    (hOther : n ≠ receiver.dispatcher.nodeId) (hEnv : IsFrom app n env) (now : Instant) :
    Receives (sessionMessage env) (receiver.sessionCopy app.id n)
      ((receiver.handleIncoming now env).sessionCopy app.id n) := by
  obtain ⟨seq, payload, hSeq, rfl, hOrigin⟩ := hEnv
  have hSame := (receiver.sameCopies_seePeer now payload).sessions app.id n
  have hPeer : n ≠ (receiver.seePeer now payload).dispatcher.nodeId := by
    rw [(receiver.seePeer_same now payload).2.2.2.1]
    exact hOther
  rw [handleIncoming_envelope hTable, ← hSame]
  cases hSession : payload.isSession with
  | true =>
    cases payload with
    | UserOnline origin u =>
      obtain rfl : origin = n := Option.some.inj (hOrigin (.inr rfl))
      rw [handlePayload_of_peer _ _ _ rfl hPeer]
      exact sessionCopy_userOnline now app origin hSeq _ u
    | UserOffline origin u =>
      obtain rfl : origin = n := Option.some.inj (hOrigin (.inr rfl))
      rw [handlePayload_of_peer _ _ _ rfl hPeer]
      exact sessionCopy_userOffline now app origin hSeq _ u
    | UserSessionSnapshot origin userIds =>
      obtain rfl : origin = n := Option.some.inj (hOrigin (.inr rfl))
      rw [handlePayload_of_peer _ _ _ rfl hPeer]
      exact fun u => handles_userSessionSnapshot _ now app origin userIds hSeq u
    | _ => cases hSession
  | false =>
    rw [sessionMessage_other app seq hSession]
    cases hCount : payload.isCount with
    | true => exact sessionCopy_handlePayload_count _ now app seq hCount app.id n
    | false =>
      exact (sameCopies_handlePayload _ now app seq hCount hSession).sessions app.id n

end

/-! ## The sender -/

structure Sender where
  slot : AppChannels
  dispatcher : EventDispatcher
  counting : String → Phase Nat
  /-- The counter at the last change of each channel's count. -/
  countChanged : String → Option Nat
  countBeat : Option (Nat × Map String Nat)
  signing : String → Phase Bool
  /-- The counter when each user's first or last socket came or went. -/
  userChanged : String → Option Nat
  sessionBeat : Option (Nat × Map String Bool)

inductive Action where
  | join (now : Instant) (c socketId : String) (presence : Option PresenceMember)
    (admits : Channel → Bool)
  | leave (now : Instant) (c socketId : String)
  | create (c : String)
  | collect (now : Instant)
  | numberCount (c : String)
  | queueCount (c : String) (vacatedWithheld : Bool)
  | countBeat
  | readCount (c : String)
  | queueCounts
  | bind (u socketId : String)
  | unbind (u socketId : String)
  | numberUser (u : String)
  | queueUser (u : String)
  | sessionBeat
  | readUser (u : String)
  | queueSessions
  /-- A number is taken and not used. -/
  | skip
  /-- Anything about neither counts nor users. -/
  | publish (payload : ScalingPayload)

namespace Sender

def new (nodeId : String) : Sender where
  slot := .empty
  dispatcher := .new nodeId true
  counting _ := .idle
  countChanged _ := none
  countBeat := none
  signing _ := .idle
  userChanged _ := none
  sessionBeat := none

def countChange (sender : Sender) (c : String) (count : Nat) : Sender :=
  { sender with
    counting := update sender.counting c (.changed count)
    countChanged := update sender.countChanged c (some sender.dispatcher.seq) }

def userChange (sender : Sender) (u : String) (online : Bool) : Sender :=
  { sender with
    signing := update sender.signing u (.changed online)
    userChanged := update sender.userChanged u (some sender.dispatcher.seq) }

def joined (sender : Sender) (app : Application) (now : Instant) (c socketId : String)
    (presence : Option PresenceMember) (admits : Channel → Bool) : Sender :=
  let result := sender.slot.subscribeWith now app c socketId presence admits
  let sender := { sender with slot := result.2 }
  match result.1 with
  | some (r, _, _) =>
    if r.wasNew = true ∧ presence = none then sender.countChange c r.memberCount else sender
  | none => sender

def left (sender : Sender) (now : Instant) (c socketId : String) : Sender :=
  let result := sender.slot.unsubscribeWith now c socketId
  let sender := { sender with slot := result.2 }
  match result.1 with
  | some (r, _) =>
    if r.wasMember = true ∧ (ChannelKind.fromName c).isPresence = false then
      sender.countChange c r.memberCount
    else sender
  | none => sender

def bound (sender : Sender) (u socketId : String) : Sender :=
  let result := sender.slot.bindUser u socketId
  let sender := { sender with slot := result.2 }
  if result.1 = true then sender.userChange u true else sender

def unbound (sender : Sender) (u socketId : String) : Sender :=
  let result := sender.slot.unbindUser u socketId
  let sender := { sender with slot := result.2 }
  if result.1 = true then sender.userChange u false else sender

def countsSeen (seen : Map String Nat) : List ChannelCount :=
  (seen.entries.filter fun e => decide (0 < e.2)).map fun e => ⟨e.1, e.2⟩

def usersSeen (seen : Map String Bool) : List String :=
  (seen.entries.filter fun e => e.2).map fun e => e.1

def userPayload (nodeId u : String) : Bool → ScalingPayload
  | true => .UserOnline nodeId u
  | false => .UserOffline nodeId u

def act (app : Application) (sender : Sender) : Action → Option Sender
  | .join now c socketId presence admits =>
    if sender.counting c = .idle ∧ presence.isSome = (ChannelKind.fromName c).isPresence then
      some (sender.joined app now c socketId presence admits)
    else none
  | .leave now c socketId =>
    if sender.counting c = .idle then some (sender.left now c socketId) else none
  | .create c =>
    some { sender with slot := (sender.slot.getOrCreateCacheChannel app c).2 }
  | .collect now => some { sender with slot := sender.slot.gcEmptyCacheChannels now }
  | .numberCount c =>
    match sender.counting c with
    | .changed count => some { sender with
        dispatcher := sender.dispatcher.nextSeq.2
        counting := update sender.counting c
          (.numbered sender.dispatcher.nextSeq.1 count) }
    | _ => none
  | .queueCount c vacatedWithheld =>
    match sender.counting c with
    | .numbered seq count => some { sender with
        dispatcher := sender.dispatcher.spawnPublish (envelope app seq
          (.SubscriptionCount sender.dispatcher.nodeId c count vacatedWithheld))
        counting := update sender.counting c .idle }
    | _ => none
  | .countBeat =>
    match sender.countBeat with
    | none => some { sender with
        dispatcher := sender.dispatcher.nextSeq.2
        countBeat := some (sender.dispatcher.nextSeq.1, ∅) }
    | some _ => none
  | .readCount c =>
    match sender.countBeat with
    | some (seq, seen) =>
      if c ∉ seen ∧ (ChannelKind.fromName c).isPresence = false then
        some { sender with countBeat := some (seq, seen.insert c (sender.slot.lenOf c)) }
      else none
    | none => none
  | .queueCounts =>
    match sender.countBeat with
    | some (seq, seen) =>
      if ∀ c ∈ sender.slot.channels.keys, (ChannelKind.fromName c).isPresence = false →
          c ∈ seen then
        some { sender with
          dispatcher := sender.dispatcher.publishChannelCountSnapshot app (countsSeen seen) seq
          countBeat := none }
      else none
    | none => none
  | .bind u socketId =>
    if sender.signing u = .idle then some (sender.bound u socketId) else none
  | .unbind u socketId =>
    if sender.signing u = .idle then some (sender.unbound u socketId) else none
  | .numberUser u =>
    match sender.signing u with
    | .changed online => some { sender with
        dispatcher := sender.dispatcher.nextSeq.2
        signing := update sender.signing u
          (.numbered sender.dispatcher.nextSeq.1 online) }
    | _ => none
  | .queueUser u =>
    match sender.signing u with
    | .numbered seq online => some { sender with
        dispatcher := sender.dispatcher.spawnPublish (envelope app seq
          (userPayload sender.dispatcher.nodeId u online))
        signing := update sender.signing u .idle }
    | _ => none
  | .sessionBeat =>
    match sender.sessionBeat with
    | none => some { sender with
        dispatcher := sender.dispatcher.nextSeq.2
        sessionBeat := some (sender.dispatcher.nextSeq.1, ∅) }
    | some _ => none
  | .readUser u =>
    match sender.sessionBeat with
    | some (seq, seen) =>
      if u ∉ seen then
        some { sender with sessionBeat := some (seq, seen.insert u (sender.slot.isUserOnline u)) }
      else none
    | none => none
  | .queueSessions =>
    match sender.sessionBeat with
    | some (seq, seen) =>
      if ∀ u ∈ sender.slot.localUserIds, u ∈ seen then
        some { sender with
          dispatcher := sender.dispatcher.publishUserSessionSnapshot app (usersSeen seen) seq
          sessionBeat := none }
      else none
    | none => none
  | .skip => some { sender with dispatcher := sender.dispatcher.nextSeq.2 }
  | .publish payload =>
    if payload.isCount = false ∧ payload.isSession = false then
      some { sender with dispatcher := sender.dispatcher.spawnPublish (envelope app 0 payload) }
    else none

end Sender

/-! ## The bus -/

structure System where
  sender : Sender
  /-- How many messages the bus has taken from the sender's queue. -/
  taken : Nat
  receiver : Node

inductive Label where
  | send (action : Action)
  | deliver (now : Instant)
  | lose

namespace System

def start (nodeId : String) (receiver : Node) : System := ⟨.new nodeId, 0, receiver⟩

def next (σ : System) : Option ScalingEnvelope := σ.sender.dispatcher.published[σ.taken]?

def step (app : Application) (σ : System) : Label → Option System
  | .send action => (σ.sender.act app action).map fun sender => { σ with sender := sender }
  | .deliver now => σ.next.map fun env => { σ with
      taken := σ.taken + 1
      receiver := σ.receiver.handleIncoming now env }
  | .lose => σ.next.map fun _ => { σ with taken := σ.taken + 1 }

theorem announceCount (app : Application) {σ : System}
    (hScaling : σ.sender.dispatcher.scalingEnabled = true) {c : String} {count : Nat}
    (hChanged : σ.sender.counting c = .changed count) (vacatedWithheld : Bool) :
    exec (step app) σ [.send (.numberCount c), .send (.queueCount c vacatedWithheld)] =
      some { σ with sender := { σ.sender with
        dispatcher := σ.sender.dispatcher.publishSubscriptionCount app c count vacatedWithheld
        counting := update σ.sender.counting c .idle } } := by
  rw [publishSubscriptionCount, spawnPublish_unnumbered hScaling, exec, step, Sender.act, hChanged]
  simp only [map_some, bind_some, exec, step, Sender.act, update_self, update_idem]
  have hNumbered : σ.sender.dispatcher.nextSeq.2.scalingEnabled = true := hScaling
  rw [spawnPublish_of_pos hNumbered (Nat.succ_pos _)]
  rfl

theorem announceUser (app : Application) {σ : System}
    (hScaling : σ.sender.dispatcher.scalingEnabled = true) {u : String} {online : Bool}
    (hChanged : σ.sender.signing u = .changed online) :
    exec (step app) σ [.send (.numberUser u), .send (.queueUser u)] =
      some { σ with sender := { σ.sender with
        dispatcher := σ.sender.dispatcher.spawnPublish (envelope app 0
          (Sender.userPayload σ.sender.dispatcher.nodeId u online))
        signing := update σ.sender.signing u .idle } } := by
  rw [spawnPublish_unnumbered hScaling, exec, step, Sender.act, hChanged]
  simp only [map_some, bind_some, exec, step, Sender.act, update_self, update_idem]
  have hNumbered : σ.sender.dispatcher.nextSeq.2.scalingEnabled = true := hScaling
  rw [spawnPublish_of_pos hNumbered (Nat.succ_pos _)]
  rfl

end System

/-! ## Changes of the channels and the users -/

namespace Sender

def countOf (slot : AppChannels) (c : String) : Nat :=
  if (ChannelKind.fromName c).isPresence then 0 else slot.lenOf c

/-- What happens to the channels and the users: nothing that counts, or one change whose
announcement starts. -/
inductive Moves (sender : Sender) : Sender → Prop where
  | still (slot : AppChannels) (hCounts : countOf slot = countOf sender.slot)
      (hUsers : slot.isUserOnline = sender.slot.isUserOnline) :
    Moves sender { sender with slot := slot }
  | count (slot : AppChannels) (c : String) (count : Nat) (hIdle : sender.counting c = .idle)
      (hCounts : countOf slot = update (countOf sender.slot) c count)
      (hUsers : slot.isUserOnline = sender.slot.isUserOnline) :
    Moves sender ({ sender with slot := slot }.countChange c count)
  | user (slot : AppChannels) (u : String) (online : Bool) (hIdle : sender.signing u = .idle)
      (hCounts : countOf slot = countOf sender.slot)
      (hUsers : slot.isUserOnline = update sender.slot.isUserOnline u online) :
    Moves sender ({ sender with slot := slot }.userChange u online)

theorem countOf_congr {slot after : AppChannels} (h : ∀ c, after.lenOf c = slot.lenOf c) :
    countOf after = countOf slot := by
  funext c
  rw [countOf, h, countOf]

theorem countOf_of_channels {slot after : AppChannels} (h : after.channels = slot.channels) :
    countOf after = countOf slot :=
  countOf_congr fun c => by
    rw [AppChannels.lenOf, AppChannels.findChannel, h, AppChannels.lenOf, AppChannels.findChannel]

variable (app : Application) (now : Instant) (socketId : String) {sender : Sender} {c u : String}

/-- A change of a channel without a roster is announced; a roster is not among the counts. -/
theorem Moves.counted {slot : AppChannels} {changed : Bool} {count : Nat}
    (hIdle : sender.counting c = .idle)
    (hLen : ∀ x, slot.lenOf x = if changed = true ∧ x = c then count else sender.slot.lenOf x)
    (hUsers : slot.isUserOnline = sender.slot.isUserOnline) {announced : Prop} [Decidable announced]
    (hAnnounced : announced ↔ changed = true ∧ (fromName c).isPresence = false) :
    Moves sender (if announced then { sender with slot := slot }.countChange c count
      else { sender with slot := slot }) := by
  split
  · rename_i hNew
    obtain ⟨hChanged, hPlain⟩ := hAnnounced.mp hNew
    refine .count _ c count hIdle ?_ hUsers
    funext x
    rw [countOf, hLen, update_apply]
    by_cases hx : x = c
    · subst hx
      rw [hPlain, if_neg Bool.false_ne_true, if_pos ⟨hChanged, rfl⟩, if_pos rfl]
    · rw [if_neg hx, countOf]
      exact if_congr Iff.rfl rfl (if_neg fun h => hx h.2)
  · rename_i hOld
    refine .still _ ?_ hUsers
    funext x
    rw [countOf, hLen, countOf]
    by_cases hx : changed = true ∧ x = c
    · have hRoster : (fromName x).isPresence = true := by
        rw [hx.2, ← Bool.not_eq_false]
        exact fun hPlain => hOld (hAnnounced.mpr ⟨hx.1, hPlain⟩)
      rw [hRoster]
      rfl
    · rw [if_neg hx]

theorem moves_joined {presence : Option PresenceMember} (admits : Channel → Bool)
    (hIdle : sender.counting c = .idle)
    (hPresence : presence.isSome = (fromName c).isPresence) :
    Moves sender (sender.joined app now c socketId presence admits) := by
  have hLen := sender.slot.lenOf_subscribeWith now app c socketId presence admits
  have hUsers : (sender.slot.subscribeWith now app c socketId presence admits).2.isUserOnline =
      sender.slot.isUserOnline := by
    refine isUserOnline_congr ?_
    rw [AppChannels.subscribeWith]
    dsimp only
    split
    · rfl
    · exact userIndex_removeUnused ..
  rw [joined]
  cases hResult : (sender.slot.subscribeWith now app c socketId presence admits).1 with
  | none =>
    rw [hResult] at hLen
    exact .still _ (countOf_congr hLen) hUsers
  | some result =>
    rw [hResult] at hLen
    refine Moves.counted hIdle hLen hUsers (and_congr_right fun _ => ?_)
    rw [← hPresence, isSome_eq_false_iff, isNone_iff_eq_none]

theorem moves_left (hIdle : sender.counting c = .idle) :
    Moves sender (sender.left now c socketId) := by
  have hLen := sender.slot.lenOf_unsubscribeWith now c socketId
  have hUsers : (sender.slot.unsubscribeWith now c socketId).2.isUserOnline =
      sender.slot.isUserOnline := by
    refine isUserOnline_congr ?_
    rw [AppChannels.unsubscribeWith]
    split
    · rfl
    · exact userIndex_removeUnused ..
  rw [left]
  cases hResult : (sender.slot.unsubscribeWith now c socketId).1 with
  | none =>
    rw [hResult] at hLen
    exact .still _ (countOf_congr hLen) hUsers
  | some result =>
    rw [hResult] at hLen
    exact Moves.counted hIdle hLen hUsers Iff.rfl

theorem moves_bound (hIdle : sender.signing u = .idle) :
    Moves sender (sender.bound u socketId) := by
  have hOnline := sender.slot.isUserOnline_bindUser u socketId
  have hCounts : countOf (sender.slot.bindUser u socketId).2 = countOf sender.slot :=
    countOf_of_channels rfl
  rw [bound]
  split
  · rename_i hFirst
    rw [if_pos hFirst] at hOnline
    exact .user _ u true hIdle hCounts hOnline
  · rename_i hFurther
    rw [if_neg hFurther] at hOnline
    exact .still _ hCounts hOnline

theorem moves_unbound (hIdle : sender.signing u = .idle) :
    Moves sender (sender.unbound u socketId) := by
  have hOnline := sender.slot.isUserOnline_unbindUser u socketId
  have hCounts : countOf (sender.slot.unbindUser u socketId).2 = countOf sender.slot :=
    countOf_of_channels (channels_unbindUser ..)
  rw [unbound]
  split
  · rename_i hLast
    rw [if_pos hLast] at hOnline
    exact .user _ u false hIdle hCounts hOnline
  · rename_i hFurther
    rw [if_neg hFurther] at hOnline
    exact .still _ hCounts hOnline

theorem moves_create (c : String) :
    Moves sender { sender with slot := (sender.slot.getOrCreateCacheChannel app c).2 } := by
  refine .still _ (countOf_congr (sender.slot.lenOf_getOrCreateCacheChannel app c))
    (isUserOnline_congr ?_)
  rw [AppChannels.getOrCreateCacheChannel]
  split <;> rfl

theorem moves_collect : Moves sender { sender with slot := sender.slot.gcEmptyCacheChannels now } :=
  .still _ (countOf_congr (sender.slot.lenOf_gcEmptyCacheChannels now)) (isUserOnline_congr rfl)

inductive Acts (app : Application) (sender : Sender) : Sender → Prop where
  | moves (after : Sender) (h : Moves sender after) : Acts app sender after
  | numberCount (c : String) (count : Nat) (h : sender.counting c = .changed count) :
    Acts app sender { sender with
      dispatcher := sender.dispatcher.nextSeq.2
      counting := update sender.counting c
        (.numbered sender.dispatcher.nextSeq.1 count) }
  | queueCount (c : String) (seq count : Nat) (vacatedWithheld : Bool)
      (h : sender.counting c = .numbered seq count) :
    Acts app sender { sender with
      dispatcher := sender.dispatcher.spawnPublish (envelope app seq
        (.SubscriptionCount sender.dispatcher.nodeId c count vacatedWithheld))
      counting := update sender.counting c .idle }
  | countBeat (h : sender.countBeat = none) :
    Acts app sender { sender with
      dispatcher := sender.dispatcher.nextSeq.2
      countBeat := some (sender.dispatcher.nextSeq.1, ∅) }
  | readCount (c : String) (seq : Nat) (seen : Map String Nat)
      (h : sender.countBeat = some (seq, seen)) (hUnread : c ∉ seen)
      (hPlain : (ChannelKind.fromName c).isPresence = false) :
    Acts app sender
      { sender with countBeat := some (seq, seen.insert c (sender.slot.lenOf c)) }
  | queueCounts (seq : Nat) (seen : Map String Nat) (h : sender.countBeat = some (seq, seen))
      (hRead : ∀ c ∈ sender.slot.channels.keys, (ChannelKind.fromName c).isPresence = false →
        c ∈ seen) :
    Acts app sender { sender with
      dispatcher := sender.dispatcher.publishChannelCountSnapshot app (countsSeen seen) seq
      countBeat := none }
  | numberUser (u : String) (online : Bool) (h : sender.signing u = .changed online) :
    Acts app sender { sender with
      dispatcher := sender.dispatcher.nextSeq.2
      signing := update sender.signing u
        (.numbered sender.dispatcher.nextSeq.1 online) }
  | queueUser (u : String) (seq : Nat) (online : Bool)
      (h : sender.signing u = .numbered seq online) :
    Acts app sender { sender with
      dispatcher := sender.dispatcher.spawnPublish (envelope app seq
        (userPayload sender.dispatcher.nodeId u online))
      signing := update sender.signing u .idle }
  | sessionBeat (h : sender.sessionBeat = none) :
    Acts app sender { sender with
      dispatcher := sender.dispatcher.nextSeq.2
      sessionBeat := some (sender.dispatcher.nextSeq.1, ∅) }
  | readUser (u : String) (seq : Nat) (seen : Map String Bool)
      (h : sender.sessionBeat = some (seq, seen)) (hUnread : u ∉ seen) :
    Acts app sender
      { sender with sessionBeat := some (seq, seen.insert u (sender.slot.isUserOnline u)) }
  | queueSessions (seq : Nat) (seen : Map String Bool)
      (h : sender.sessionBeat = some (seq, seen))
      (hRead : ∀ u ∈ sender.slot.localUserIds, u ∈ seen) :
    Acts app sender { sender with
      dispatcher := sender.dispatcher.publishUserSessionSnapshot app (usersSeen seen) seq
      sessionBeat := none }
  | skip : Acts app sender { sender with dispatcher := sender.dispatcher.nextSeq.2 }
  | publish (payload : ScalingPayload) (hCount : payload.isCount = false)
      (hSession : payload.isSession = false) :
    Acts app sender
      { sender with dispatcher := sender.dispatcher.spawnPublish (envelope app 0 payload) }

theorem acts_of_act {app : Application} {action : Action} {after : Sender}
    (hAct : sender.act app action = some after) : Acts app sender after := by
  cases action with
  | join now c socketId presence admits =>
    obtain ⟨⟨hIdle, hPresence⟩, hAfter⟩ := ite_none_right_eq_some.mp hAct
    cases hAfter
    exact .moves _ (moves_joined app now socketId admits hIdle hPresence)
  | leave now c socketId =>
    obtain ⟨hIdle, hAfter⟩ := ite_none_right_eq_some.mp hAct
    cases hAfter
    exact .moves _ (moves_left now socketId hIdle)
  | create c =>
    cases hAct
    exact .moves _ (moves_create app c)
  | collect now =>
    cases hAct
    exact .moves _ (moves_collect now)
  | bind u socketId =>
    obtain ⟨hIdle, hAfter⟩ := ite_none_right_eq_some.mp hAct
    cases hAfter
    exact .moves _ (moves_bound socketId hIdle)
  | unbind u socketId =>
    obtain ⟨hIdle, hAfter⟩ := ite_none_right_eq_some.mp hAct
    cases hAfter
    exact .moves _ (moves_unbound socketId hIdle)
  | numberCount c =>
    rw [act] at hAct
    split at hAct <;> cases hAct
    rename_i count hChanged
    exact .numberCount c count hChanged
  | queueCount c vacatedWithheld =>
    rw [act] at hAct
    split at hAct <;> cases hAct
    rename_i seq count hNumbered
    exact .queueCount c seq count vacatedWithheld hNumbered
  | countBeat =>
    rw [act] at hAct
    split at hAct <;> cases hAct
    rename_i hBeat
    exact .countBeat hBeat
  | readCount c =>
    rw [act] at hAct
    split at hAct
    · rename_i seq seen hBeat
      obtain ⟨hRead, hAfter⟩ := ite_none_right_eq_some.mp hAct
      cases hAfter
      exact .readCount c seq seen hBeat hRead.1 hRead.2
    · cases hAct
  | queueCounts =>
    rw [act] at hAct
    split at hAct
    · rename_i seq seen hBeat
      obtain ⟨hRead, hAfter⟩ := ite_none_right_eq_some.mp hAct
      cases hAfter
      exact .queueCounts seq seen hBeat hRead
    · cases hAct
  | numberUser u =>
    rw [act] at hAct
    split at hAct <;> cases hAct
    rename_i online hChanged
    exact .numberUser u online hChanged
  | queueUser u =>
    rw [act] at hAct
    split at hAct <;> cases hAct
    rename_i seq online hNumbered
    exact .queueUser u seq online hNumbered
  | sessionBeat =>
    rw [act] at hAct
    split at hAct <;> cases hAct
    rename_i hBeat
    exact .sessionBeat hBeat
  | readUser u =>
    rw [act] at hAct
    split at hAct
    · rename_i seq seen hBeat
      obtain ⟨hUnread, hAfter⟩ := ite_none_right_eq_some.mp hAct
      cases hAfter
      exact .readUser u seq seen hBeat hUnread
    · cases hAct
  | queueSessions =>
    rw [act] at hAct
    split at hAct
    · rename_i seq seen hBeat
      obtain ⟨hRead, hAfter⟩ := ite_none_right_eq_some.mp hAct
      cases hAfter
      exact .queueSessions seq seen hBeat hRead
    · cases hAct
  | skip =>
    cases hAct
    exact .skip
  | publish payload =>
    obtain ⟨⟨hCount, hSession⟩, hAfter⟩ := ite_none_right_eq_some.mp hAct
    cases hAfter
    exact .publish payload hCount hSession

end Sender

end PeerReplica

end Zatat
