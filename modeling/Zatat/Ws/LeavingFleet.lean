import Zatat.Lib.LastOut
import Zatat.Ws.Withholding

/-! # A user leaves a channel on every node of a fleet

Each node holds one member of the user and leaves once. The announcements reach
all nodes over a bus with one order: a node's queue goes to the bus message by
message, and each node takes the messages off the bus one by one, its own
included.
-/

namespace Zatat.LeavingFleet

open Function FiniteMap Transition LastOut Node List Option

structure Setting (ι : Type) where
  ids : ι → String
  app : Application
  channel : String
  user : String
  socket : ι → String

/-- `shipped` counts the messages of a node's queue that are on the bus, `taken`
the messages of the bus a node has handled, and `left` keeps how many it had
handled when its member left. -/
structure Fleet (ι : Type) where
  nodes : ι → Node
  bus : List (ι × ScalingEnvelope)
  shipped : ι → Nat
  taken : ι → Nat
  left : ι → Option Nat

inductive Label (ι : Type) where
  | leave (i : ι) (now : Instant)
  | publish (i : ι)
  | deliver (i : ι) (now : Instant)

variable {ι : Type} [DecidableEq ι] (f : Setting ι)

def step (σ : Fleet ι) : Label ι → Option (Fleet ι)
  | .leave i now =>
    if (σ.left i).isNone then
      some { σ with
        nodes := update σ.nodes i
          ((σ.nodes i).leaveChannel now f.app (f.socket i) f.channel)
        left := update σ.left i (some (σ.taken i)) }
    else none
  | .publish i =>
    ((σ.nodes i).dispatcher.published[σ.shipped i]?).map fun env =>
      { σ with
        bus := σ.bus ++ [(i, env)]
        shipped := update σ.shipped i (σ.shipped i + 1) }
  | .deliver i now =>
    (σ.bus[σ.taken i]?).map fun m =>
      { σ with
        nodes := update σ.nodes i ((σ.nodes i).handleIncoming now m.2)
        taken := update σ.taken i (σ.taken i + 1) }

def Fleet.progress (σ : Fleet ι) : Progress ι := ⟨σ.bus.map Prod.fst, σ.taken, σ.left⟩

structure Done (σ : Fleet ι) : Prop where
  left : ∀ i, (σ.left i).isSome = true
  shipped : ∀ i, σ.shipped i = (σ.nodes i).dispatcher.published.length
  taken : ∀ i, σ.taken i = σ.bus.length

def reports [Fintype ι] (σ τ : Fleet ι) (event : WebhookEvent) : Nat :=
  ∑ i, ((σ.nodes i).webhooksSince (τ.nodes i)).count (f.app.id, event)

/-- Every node has a member of the user and lists the user on every other node;
nothing is under way. -/
structure Start (σ : Fleet ι) : Prop where
  presence : (ChannelKind.fromName f.channel).isPresence = true
  distinct : Injective f.ids
  bus : σ.bus = []
  taken : ∀ i, σ.taken i = 0
  left : ∀ i, σ.left i = none
  shipped : ∀ i, σ.shipped i = (σ.nodes i).dispatcher.published.length
  nodeId : ∀ i, (σ.nodes i).dispatcher.nodeId = f.ids i
  scaling : ∀ i, (σ.nodes i).dispatcher.scalingEnabled = true
  stands : ∀ i, (σ.nodes i).Stands f.app f.channel f.user (f.socket i) true
    (fun n => ∃ j, j ≠ i ∧ n = f.ids j)
  heard : ∀ i j, j ≠ i →
    (σ.nodes i).dispatcher.applied (f.ids j) f.app.id ("p:" ++ f.channel) ≤
      (σ.nodes j).dispatcher.seq

theorem handleIncoming_own {node : Node} {now : Instant} {app : Application} {c u origin : String}
    (hOrigin : node.dispatcher.nodeId = origin) (seq : Nat) (flag : Bool) :
    node.handleIncoming now (Node.removal app c u origin seq flag) = node := by
  have hSeen : node.seePeer now (Node.removal app c u origin seq flag).payload = node :=
    if_pos hOrigin.symm
  have hVersion : ¬ (Node.removal app c u origin seq flag).version > scalingVersion :=
    Nat.lt_irrefl _
  rw [Node.handleIncoming, if_neg hVersion, hSeen]
  dsimp only
  split
  · rfl
  · exact handlePayload_of_own _ _ _ rfl hOrigin.symm

/-! ## What every run keeps -/

def message (σ₀ : Fleet ι) (i : ι) (flag : Bool) : ScalingEnvelope :=
  Node.removal f.app f.channel f.user (f.ids i) ((σ₀.nodes i).dispatcher.seq + 1) flag

/-- The events a node enqueued: once the removal and once the vacancy if it speaks. -/
structure Spoken (new : List (String × WebhookEvent)) (speaks : Prop) : Prop where
  once : speaks → new.count (f.app.id, .MemberRemoved f.channel f.user) = 1 ∧
    new.count (f.app.id, .ChannelVacated f.channel) = 1
  never : ¬ speaks → new.count (f.app.id, .MemberRemoved f.channel f.user) = 0 ∧
    new.count (f.app.id, .ChannelVacated f.channel) = 0

/-- One node of a run that began at `start` in the state `σ₀`. -/
structure Party (start : Instant) (σ₀ σ : Fleet ι) (i : ι) : Prop where
  nodeId : (σ.nodes i).dispatcher.nodeId = f.ids i
  scaling : (σ.nodes i).dispatcher.scalingEnabled = true
  stands : (σ.nodes i).Stands f.app f.channel f.user (f.socket i) (σ.left i).isNone
    (fun n => ∃ j, j ≠ i ∧ n = f.ids j ∧ j ∉ σ.progress.received i)
  heard : ∀ j, j ≠ i → j ∉ σ.progress.received i →
    (σ.nodes i).dispatcher.applied (f.ids j) f.app.id ("p:" ++ f.channel) ≤
      (σ₀.nodes j).dispatcher.seq
  here : σ.left i = none → (σ.nodes i).dispatcher.queue = (σ₀.nodes i).dispatcher.queue
  gone : (σ.left i).isSome = true → ∃ flag, (flag = true ↔ σ.progress.Withheld i) ∧
    (σ.nodes i).dispatcher.published =
      (σ₀.nodes i).dispatcher.published ++ [message f σ₀ i flag]
  shipped : σ.shipped i = (σ₀.nodes i).dispatcher.published.length +
    if i ∈ σ.progress.order then 1 else 0
  noted : (σ.left i).isSome = true → ¬ Alone (σ.progress.received i) i →
    ∀ userId ∈ [some f.user, none], ∃ noted,
      (σ.nodes i).dispatcher.withheld.lookup (f.app.id, f.channel, userId) = some noted ∧
        start ≤ noted
  spoken : ∃ new, (σ.nodes i).webhooks = (σ₀.nodes i).webhooks ++ new ∧
    Spoken f new (σ.progress.Speaks f.ids i)

structure Inv (start : Instant) (σ₀ σ : Fleet ι) : Prop where
  valid : σ.progress.Valid
  bus : ∀ m ∈ σ.bus, ∃ flag, (flag = true ↔ σ.progress.Withheld m.1) ∧ m.2 = message f σ₀ m.1 flag
  party : ∀ i, Party f start σ₀ σ i

variable {f}

omit [DecidableEq ι] in
theorem spoken_nil {speaks : Prop} (h : ¬ speaks) : Spoken f [] speaks :=
  ⟨fun hSpeaks => absurd hSpeaks h, fun _ => ⟨rfl, rfl⟩⟩

theorem Start.inv {σ₀ : Fleet ι} (h : Start f σ₀) (start : Instant) : Inv f start σ₀ σ₀ := by
  have hOrder : σ₀.progress.order = [] := by
    rw [Fleet.progress, h.bus]
    rfl
  have hReceived (i : ι) : σ₀.progress.received i = [] := by
    rw [Progress.received, hOrder, take_nil]
  refine ⟨⟨?_, ?_, ?_, ?_⟩, ?_, fun i => ⟨h.nodeId i, h.scaling i, ?_, ?_, ?_, ?_, ?_, ?_, ?_⟩⟩
  · rw [hOrder]
    exact nodup_nil
  · intro i hi
    rw [hOrder] at hi
    cases hi
  · intro i
    exact (h.taken i).le.trans (Nat.zero_le _)
  · intro i k hk
    rw [show σ₀.progress.left i = none from h.left i] at hk
    cases hk
  · intro m hm
    rw [h.bus] at hm
    cases hm
  · rw [h.left i, hReceived]
    refine ⟨(h.stands i).config, (h.stands i).wellFormed, (h.stands i).member,
      (h.stands i).others, fun n v => ?_⟩
    rw [(h.stands i).lists]
    simp
  · intro j hj _
    exact h.heard i j hj
  · intro _
    rfl
  · intro hLeft
    rw [h.left i] at hLeft
    cases hLeft
  · rw [hOrder, h.shipped i]
    simp
  · intro hLeft
    rw [h.left i] at hLeft
    cases hLeft
  · refine ⟨[], (append_nil _).symm, spoken_nil ?_⟩
    rintro (⟨k, hk, -⟩ | ⟨hLeft, -⟩)
    · rw [show σ₀.progress.left i = none from h.left i] at hk
      cases hk
    · rw [show σ₀.progress.left i = none from h.left i] at hLeft
      cases hLeft

omit [DecidableEq ι] in
theorem Spoken.congr {new : List (String × WebhookEvent)} {speaks speaks' : Prop}
    (h : Spoken f new speaks) (hSpeaks : speaks' ↔ speaks) : Spoken f new speaks' :=
  ⟨fun hs => h.once (hSpeaks.mp hs), fun hs => h.never (mt hSpeaks.mpr hs)⟩

theorem Party.congr {start : Instant} {σ₀ σ τ : Fleet ι} {i : ι} (h : Party f start σ₀ σ i)
    (hNode : τ.nodes i = σ.nodes i) (hShipped : τ.shipped i = σ.shipped i)
    (hLeft : τ.left i = σ.left i)
    (hReceived : ∀ j, j ≠ i → (j ∈ τ.progress.received i ↔ j ∈ σ.progress.received i))
    (hOrder : i ∈ τ.progress.order ↔ i ∈ σ.progress.order)
    (hWithheld : τ.progress.Withheld i ↔ σ.progress.Withheld i)
    (hSpeaks : τ.progress.Speaks f.ids i ↔ σ.progress.Speaks f.ids i) : Party f start σ₀ τ i := by
  refine ⟨?_, ?_, ?_, ?_, ?_, ?_, ?_, ?_, ?_⟩
  · rw [hNode]
    exact h.nodeId
  · rw [hNode]
    exact h.scaling
  · rw [hNode, hLeft]
    refine h.stands.congr fun n => exists_congr fun j => and_congr_right fun hj => ?_
    rw [hReceived j hj]
  · rw [hNode]
    intro j hj hMissing
    exact h.heard j hj (mt (hReceived j hj).mpr hMissing)
  · rw [hNode, hLeft]
    exact h.here
  · rw [hNode, hLeft, hWithheld]
    exact h.gone
  · rw [hShipped, h.shipped]
    simp only [hOrder]
  · rw [hNode, hLeft]
    intro hGone hWaiting
    refine h.noted hGone fun hAlone => hWaiting fun j hj => ?_
    exact (hReceived j hj).mpr (hAlone j hj)
  · obtain ⟨new, hWebhooks, hSpoken⟩ := h.spoken
    rw [hNode]
    exact ⟨new, hWebhooks, hSpoken.congr hSpeaks⟩

omit [DecidableEq ι] in
theorem exists_rest_iff (p : Progress ι) (i : ι) :
    (∃ n, ∃ j, j ≠ i ∧ n = f.ids j ∧ j ∉ p.received i) ↔ ¬ Alone (p.received i) i := by
  rw [Alone]
  push Not
  constructor
  · rintro ⟨_, j, hj, -, hMissing⟩
    exact ⟨j, hj, hMissing⟩
  · rintro ⟨j, hj, hMissing⟩
    exact ⟨f.ids j, j, hj, rfl, hMissing⟩

omit [DecidableEq ι] in
theorem Spoken.report {new : List (String × WebhookEvent)} {speaks speaks' : Prop}
    (h : Spoken f new speaks) (hNot : ¬ speaks) (hSpeaks : speaks') {e e' : WebhookEvent}
    (hEvents : [e, e'].Perm [.MemberRemoved f.channel f.user, .ChannelVacated f.channel]) :
    Spoken f (new ++ [(f.app.id, e), (f.app.id, e')]) speaks' := by
  have hPerm : [(f.app.id, e), (f.app.id, e')].Perm
      [(f.app.id, .MemberRemoved f.channel f.user), (f.app.id, .ChannelVacated f.channel)] :=
    hEvents.map (Prod.mk f.app.id)
  refine ⟨fun _ => ?_, fun hNever => absurd hSpeaks hNever⟩
  rw [count_append, count_append, (h.never hNot).1, (h.never hNot).2, hPerm.count_eq,
    hPerm.count_eq]
  simp

/-! ### One step -/

section Steps

variable {start : Instant} {σ₀ σ : Fleet ι} {i : ι} {now : Instant} {τ : Fleet ι}
  {env : ScalingEnvelope}

theorem Party.leave (hParty : Party f start σ₀ σ i) (hStart : Start f σ₀) (hHere : σ.left i = none)
    (hNow : start ≤ now) (hFresh : (σ.nodes i).FreshRosters now f.app.id f.channel)
    (hNode : τ.nodes i = (σ.nodes i).leaveChannel now f.app (f.socket i) f.channel)
    (hShipped : τ.shipped i = σ.shipped i) (hProgress : τ.progress = σ.progress.leave i) :
    Party f start σ₀ τ i := by
  have hLeft : τ.left i = some (σ.taken i) :=
    (congrArg (fun p => Progress.left p i) hProgress).trans (update_self ..)
  have hStands := hParty.stands
  rw [hHere] at hStands
  have hKnown := ((σ.nodes i).leaveChannel_same now f.app (f.socket i) f.channel).1
  have hQueue := hParty.here hHere
  have hPublished : (σ.nodes i).dispatcher.published = (σ₀.nodes i).dispatcher.published :=
    congrArg Prod.fst hQueue
  have hSeq : (σ.nodes i).dispatcher.seq = (σ₀.nodes i).dispatcher.seq := congrArg Prod.snd hQueue
  have hSpeaks := Progress.speaks_leave_self (p := σ.progress) f.ids (i := i)
  have hSilent : ¬ σ.progress.Speaks f.ids i := by
    rintro (⟨k, hk, -⟩ | ⟨hSome, -⟩)
    · rw [show σ.progress.left i = none from hHere] at hk
      cases hk
    · rw [show σ.progress.left i = none from hHere] at hSome
      cases hSome
  obtain ⟨new, hWebhooks, hSpoken⟩ := hParty.spoken
  have hRest := exists_rest_iff (f := f) σ.progress i
  refine ⟨?_, ?_, ?_, ?_, ?_, ?_, ?_, ?_, ?_⟩
  · rw [hNode]
    exact (congrArg EventDispatcher.PeerKnowledge.nodeId hKnown).trans hParty.nodeId
  · rw [hNode]
    exact (congrArg EventDispatcher.PeerKnowledge.scalingEnabled hKnown).trans hParty.scaling
  · rw [hNode, hLeft, hProgress]
    exact hStands.leave now
  · rw [hNode, hProgress]
    intro j hj hMissing
    have hSeqs : ((σ.nodes i).leaveChannel now f.app (f.socket i) f.channel).dispatcher.peerSeqs =
        (σ.nodes i).dispatcher.peerSeqs := congrArg EventDispatcher.PeerKnowledge.peerSeqs hKnown
    rw [EventDispatcher.applied, hSeqs]
    exact hParty.heard j hj hMissing
  · intro hNone
    rw [hLeft] at hNone
    cases hNone
  · intro _
    rw [hNode, hProgress]
    by_cases hAlone : Alone (σ.progress.received i) i
    · obtain ⟨-, hAfter⟩ := leave_reports hStands hStart.presence hFresh hParty.scaling
        (mt hRest.mp (not_not_intro hAlone))
      refine ⟨false, iff_of_false Bool.false_ne_true ?_, ?_⟩
      · rintro ⟨k, hk, hNot⟩
        rw [← hProgress, show τ.progress.left i = some (σ.taken i) from hLeft] at hk
        cases hk
        exact hNot hAlone
      · rw [← hPublished, message, ← hSeq, ← hParty.nodeId]
        exact congrArg Prod.fst hAfter
    · obtain ⟨-, -, hAfter⟩ := leave_withholds hStands hStart.presence hFresh hParty.scaling
        (hRest.mpr hAlone)
      refine ⟨true, iff_of_true rfl ⟨σ.taken i, update_self .., hAlone⟩, ?_⟩
      rw [← hPublished, message, ← hSeq, ← hParty.nodeId]
      exact congrArg Prod.fst hAfter
  · rw [hShipped, hProgress]
    exact hParty.shipped
  · rw [hNode, hProgress]
    intro _ hAlone userId hUser
    obtain ⟨-, hNoted, -⟩ := leave_withholds hStands hStart.presence hFresh hParty.scaling
      (hRest.mpr hAlone)
    exact ⟨now, hNoted userId hUser, hNow⟩
  · rw [hNode, hProgress]
    by_cases hAlone : Alone (σ.progress.received i) i
    · obtain ⟨hAfter, -⟩ := leave_reports hStands hStart.presence hFresh hParty.scaling
        (mt hRest.mp (not_not_intro hAlone))
      rw [hAfter, hWebhooks, append_assoc]
      exact ⟨_, rfl, hSpoken.report hSilent (hSpeaks.mpr hAlone) (List.Perm.swap ..)⟩
    · obtain ⟨hAfter, -, -⟩ := leave_withholds hStands hStart.presence hFresh hParty.scaling
        (hRest.mpr hAlone)
      rw [hAfter]
      exact ⟨new, hWebhooks, hSpoken.congr (iff_of_false (mt hSpeaks.mp hAlone) hSilent)⟩

theorem Inv.leave (h : Inv f start σ₀ σ) (hStart : Start f σ₀) (hHere : σ.left i = none)
    (hNow : start ≤ now) (hFresh : (σ.nodes i).FreshRosters now f.app.id f.channel) :
    Inv f start σ₀ { σ with
      nodes := update σ.nodes i ((σ.nodes i).leaveChannel now f.app (f.socket i) f.channel)
      left := update σ.left i (some (σ.taken i)) } := by
  have hValid : (σ.progress.leave i).Valid := h.valid.leave hHere
  refine ⟨hValid, fun m hm => ?_, fun j => ?_⟩
  · obtain ⟨flag, hFlag, hMessage⟩ := h.bus m hm
    have hLeft := h.valid.announced m.1 (mem_map_of_mem hm)
    have hOther : m.1 ≠ i := by
      rintro rfl
      rw [show σ.progress.left m.1 = none from hHere] at hLeft
      cases hLeft
    exact ⟨flag, hFlag.trans (Progress.withheld_leave_of_ne hOther).symm, hMessage⟩
  · by_cases hj : j = i
    · rw [hj]
      exact (h.party i).leave hStart hHere hNow hFresh (update_self ..) rfl rfl
    · exact (h.party j).congr (update_of_ne hj ..) rfl (update_of_ne hj ..)
        (fun _ _ => Iff.rfl) Iff.rfl (Progress.withheld_leave_of_ne (p := σ.progress) hj)
        (Progress.speaks_leave_of_ne f.ids h.valid hHere hj)

theorem Party.next_message (h : Party f start σ₀ σ i)
    (hNext : (σ.nodes i).dispatcher.published[σ.shipped i]? = some env) :
    (σ.left i).isSome = true ∧ i ∉ σ.progress.order ∧
      ∃ flag, (flag = true ↔ σ.progress.Withheld i) ∧ env = message f σ₀ i flag := by
  obtain ⟨hIndex, -⟩ := List.getElem?_eq_some_iff.mp hNext
  have hShipped := h.shipped
  cases hLeft : σ.left i with
  | none =>
    have hPublished : (σ.nodes i).dispatcher.published = (σ₀.nodes i).dispatcher.published :=
      congrArg Prod.fst (h.here hLeft)
    rw [hPublished] at hIndex
    omega
  | some k =>
    obtain ⟨flag, hFlag, hPublished⟩ := h.gone (by rw [hLeft]; rfl)
    have hNew : i ∉ σ.progress.order := by
      intro hMem
      rw [if_pos hMem] at hShipped
      rw [hPublished, length_append, length_singleton] at hIndex
      omega
    rw [if_neg hNew, Nat.add_zero] at hShipped
    rw [hPublished, hShipped, List.getElem?_concat_length] at hNext
    cases hNext
    exact ⟨rfl, hNew, flag, hFlag, rfl⟩

theorem Inv.publish (h : Inv f start σ₀ σ)
    (hNext : (σ.nodes i).dispatcher.published[σ.shipped i]? = some env) :
    Inv f start σ₀ { σ with
      bus := σ.bus ++ [(i, env)]
      shipped := update σ.shipped i (σ.shipped i + 1) } := by
  obtain ⟨hLeft, hNew, flag, hFlag, rfl⟩ := (h.party i).next_message hNext
  have hProgress : (⟨(σ.bus ++ [(i, message f σ₀ i flag)]).map Prod.fst, σ.taken, σ.left⟩ :
      Progress ι) = σ.progress.announce i := by
    rw [map_append]
    rfl
  have hWithheld (j : ι) := Progress.withheld_announce h.valid i j
  have hSpeaks (j : ι) := Progress.speaks_announce f.ids h.valid i j
  have hReceived (j : ι) := Progress.received_announce h.valid i j
  rw [← hProgress] at hWithheld hSpeaks hReceived
  refine ⟨?_, fun m hm => ?_, fun j => ?_⟩
  · rw [Fleet.progress, hProgress]
    exact h.valid.announce hLeft hNew
  · rcases mem_append.mp hm with hOld | hLast
    · obtain ⟨flag', hFlag', hMessage⟩ := h.bus m hOld
      exact ⟨flag', hFlag'.trans (hWithheld m.1).symm, hMessage⟩
    · rw [mem_singleton] at hLast
      rw [hLast]
      exact ⟨flag, hFlag.trans (hWithheld i).symm, rfl⟩
  · by_cases hj : j = i
    · rw [hj]
      have hParty := h.party i
      obtain ⟨new, hWebhooks, hSpoken⟩ := hParty.spoken
      refine ⟨hParty.nodeId, hParty.scaling, ?_, ?_, hParty.here, ?_, ?_, ?_, ?_⟩
      · exact (hReceived i).symm ▸ hParty.stands
      · exact (hReceived i).symm ▸ hParty.heard
      · intro hSome
        obtain ⟨flag', hFlag', hPublished⟩ := hParty.gone hSome
        exact ⟨flag', hFlag'.trans (hWithheld i).symm, hPublished⟩
      · have hOn : i ∈ (σ.progress.announce i).order :=
          mem_append_right _ (mem_singleton_self i)
        rw [Fleet.progress, hProgress, if_pos hOn]
        dsimp only
        rw [update_self, hParty.shipped, if_neg hNew]
      · exact (hReceived i).symm ▸ hParty.noted
      · exact ⟨new, hWebhooks, hSpoken.congr (hSpeaks i)⟩
    · refine (h.party j).congr rfl (update_of_ne hj ..) rfl
        (fun k _ => by rw [← hReceived j]; rfl) ?_ (hWithheld j) (hSpeaks j)
      rw [Fleet.progress, hProgress, Progress.announce, mem_append, mem_singleton]
      exact or_iff_left hj

theorem lastOne_iff (hStart : Start f σ₀) (i o : ι) : Node.LastOne (σ.left i).isNone
        (fun n => ∃ j, j ≠ i ∧ n = f.ids j ∧ j ∉ σ.progress.received i) (f.ids o) ↔
      (σ.left i).isSome = true ∧ Alone (σ.progress.received i ++ [o]) i := by
  have hGone : (σ.left i).isNone = false ↔ (σ.left i).isSome = true := by
    cases σ.left i <;> simp
  rw [Node.LastOne, hGone]
  refine and_congr_right fun _ => ?_
  constructor
  · intro hRest j hj
    by_contra hMissing
    rw [mem_append, not_or, mem_singleton] at hMissing
    exact hMissing.2 (hStart.distinct (hRest (f.ids j) ⟨j, hj, rfl, hMissing.1⟩))
  · rintro hAlone n ⟨j, hj, rfl, hMissing⟩
    rcases mem_append.mp (hAlone j hj) with hMem | hMem
    · exact absurd hMem hMissing
    · rw [mem_singleton.mp hMem]

theorem Party.takeOther {o : ι} (hParty : Party f start σ₀ σ i) (hStart : Start f σ₀)
    (hValid : σ.progress.Valid) {flag : Bool} (hFlag : flag = true ↔ σ.progress.Withheld o)
    (ho : σ.progress.order[σ.progress.taken i]? = some o) (hOther : o ≠ i)
    (hWindow : now < start + withheldWindow)
    (hFresh : (σ.nodes i).FreshRosters now f.app.id f.channel)
    (hNode : τ.nodes i = (σ.nodes i).handleIncoming now (message f σ₀ o flag))
    (hShipped : τ.shipped i = σ.shipped i) (hProgress : τ.progress = σ.progress.take i) :
    Party f start σ₀ τ i := by
  have hReceived := Progress.received_take_self ho
  have hNew := Progress.notMem_received hValid ho
  have hLeft : τ.left i = σ.left i := congrArg (fun p => Progress.left p i) hProgress
  have hDistinct {j : ι} (hj : j ≠ o) : f.ids j ≠ f.ids o := fun hEq => hj (hStart.distinct hEq)
  have hOrigin : f.ids o ≠ (σ.nodes i).dispatcher.nodeId := by
    rw [hParty.nodeId]
    exact (hDistinct (Ne.symm hOther)).symm
  have hNewer := Nat.lt_succ_of_le (hParty.heard o hOther hNew)
  have hStands := hParty.stands
  have hKnown : ((σ.nodes i).handleIncoming now (message f σ₀ o flag)).known = _ :=
    known_removal flag hStands hOrigin hNewer
  have hQueue : ((σ.nodes i).handleIncoming now (message f σ₀ o flag)).dispatcher.queue = _ :=
    queue_removal flag hStands hOrigin hNewer
  have hLast := lastOne_iff (σ := σ) hStart i o
  have hSpeaks := Progress.speaks_take_other f.ids hValid ho hOther
  have hSilent := Progress.not_speaks_of_next f.ids hValid ho hOther
  have hWaiting : ¬ Alone (σ.progress.received i) i := fun hAlone => hNew (hAlone o hOther)
  obtain ⟨new, hWebhooks, hSpoken⟩ := hParty.spoken
  refine ⟨?_, ?_, ?_, ?_, ?_, ?_, ?_, ?_, ?_⟩
  · rw [hNode]
    exact (congrArg EventDispatcher.PeerKnowledge.nodeId hKnown).trans hParty.nodeId
  · rw [hNode]
    exact (congrArg EventDispatcher.PeerKnowledge.scalingEnabled hKnown).trans hParty.scaling
  · rw [hNode, hLeft, hProgress, hReceived]
    refine (hStands.removal flag hOrigin hNewer).congr fun n => ?_
    simp only [mem_append, mem_singleton, not_or]
    constructor
    · rintro ⟨j, hj, rfl, hMissing, hjo⟩
      exact ⟨⟨j, hj, rfl, hMissing⟩, hDistinct hjo⟩
    · rintro ⟨⟨j, hj, rfl, hMissing⟩, hNe⟩
      exact ⟨j, hj, rfl, hMissing, fun hEq => hNe (congrArg f.ids hEq)⟩
  · rw [hNode, hProgress, hReceived]
    intro j hj hMissing
    rw [mem_append, not_or, mem_singleton] at hMissing
    rw [message, applied_removal flag hStands hOrigin hNewer (hDistinct hMissing.2)]
    exact hParty.heard j hj hMissing.1
  · rw [hNode, hLeft]
    intro hHere
    exact hQueue.trans (hParty.here hHere)
  · rw [hNode, hLeft, hProgress]
    intro hGone
    obtain ⟨own, hOwn, hPublished⟩ := hParty.gone hGone
    exact ⟨own, hOwn, (congrArg Prod.fst hQueue).trans hPublished⟩
  · rw [hShipped, hProgress]
    exact hParty.shipped
  · rw [hNode, hLeft, hProgress, hReceived]
    intro hGone hAlone
    have hRecords := (removal_silent flag hStands hOrigin hNewer hFresh
      (fun hAll => hAlone (hLast.mp hAll.1).2)).2
    rw [message, hRecords]
    exact hParty.noted hGone hWaiting
  · rw [hNode, hProgress]
    by_cases hReport : (σ.left i).isSome = true ∧ Alone (σ.progress.received i ++ [o]) i ∧
        σ.progress.Withheld o ∧ f.ids i < f.ids o
    · have hNoted : ∀ userId ∈ [some f.user, none], ∃ noted,
          (σ.nodes i).dispatcher.withheld.lookup (f.app.id, f.channel, userId) = some noted ∧
            durationSince now noted < withheldWindow := by
        intro userId hUser
        obtain ⟨noted, hLookup, hAfter⟩ := hParty.noted hReport.1 hWaiting userId hUser
        exact ⟨noted, hLookup, durationSince_lt_withheldWindow hWindow hAfter⟩
      have hTrue : flag = true := hFlag.mpr hReport.2.2.1
      subst hTrue
      rw [message, removal_reports hStands hOrigin hNewer hFresh
        (hLast.mpr ⟨hReport.1, hReport.2.1⟩) (hParty.nodeId ▸ hReport.2.2.2) hNoted, hWebhooks,
        append_assoc]
      exact ⟨_, rfl, hSpoken.report hSilent (hSpeaks.mpr hReport) (List.Perm.refl _)⟩
    · have hNot : ¬ (Node.LastOne (σ.left i).isNone
          (fun n => ∃ j, j ≠ i ∧ n = f.ids j ∧ j ∉ σ.progress.received i) (f.ids o) ∧
            flag = true ∧ (σ.nodes i).dispatcher.nodeId < f.ids o) := by
        rw [hLast, hFlag, hParty.nodeId, and_assoc]
        exact hReport
      rw [message, (removal_silent flag hStands hOrigin hNewer hFresh hNot).1]
      exact ⟨new, hWebhooks, hSpoken.congr (iff_of_false (mt hSpeaks.mp hReport) hSilent)⟩

theorem Inv.deliver (h : Inv f start σ₀ σ) (hStart : Start f σ₀) {m : ι × ScalingEnvelope}
    (hNext : σ.bus[σ.taken i]? = some m) (hWindow : now < start + withheldWindow)
    (hFresh : (σ.nodes i).FreshRosters now f.app.id f.channel) :
    Inv f start σ₀ { σ with
      nodes := update σ.nodes i ((σ.nodes i).handleIncoming now m.2)
      taken := update σ.taken i (σ.taken i + 1) } := by
  obtain ⟨flag, hFlag, hMessage⟩ := h.bus m (mem_of_getElem? hNext)
  have ho : σ.progress.order[σ.progress.taken i]? = some m.1 := by
    change (σ.bus.map Prod.fst)[σ.taken i]? = some m.1
    rw [List.getElem?_map, hNext, map_some]
  obtain ⟨hLt, -⟩ := List.getElem?_eq_some_iff.mp ho
  refine ⟨h.valid.take hLt, h.bus, fun j => ?_⟩
  by_cases hj : j = i
  · subst hj
    by_cases hOwn : m.1 = j
    · have hSame : (σ.nodes j).handleIncoming now m.2 = σ.nodes j := by
        rw [hMessage, hOwn]
        exact handleIncoming_own (h.party j).nodeId _ _
      rw [hOwn] at ho
      refine (h.party j).congr ((update_self ..).trans hSame) rfl rfl (fun k hk => ?_)
        Iff.rfl Iff.rfl (Progress.speaks_take_own f.ids ho)
      have hReceived := Progress.received_take_self ho
      change k ∈ (σ.progress.take j).received j ↔ _
      rw [hReceived, mem_append, mem_singleton]
      exact or_iff_left hk
    · exact (h.party j).takeOther hStart h.valid hFlag ho hOwn hWindow hFresh
        (by rw [← hMessage]; exact update_self ..) rfl rfl
  · exact (h.party j).congr (update_of_ne hj ..) rfl rfl
      (fun k _ => by rw [← Progress.received_take_of_ne (p := σ.progress) hj]; rfl) Iff.rfl Iff.rfl
      (Progress.speaks_take_of_ne (p := σ.progress) f.ids hj)

end Steps

/-! ## Whole runs -/

/-- The step falls into the window that begins at `start`, and no roster it reads
is past its time to live. -/
def Timely (f : Setting ι) (start : Instant) (σ : Fleet ι) : Label ι → Prop
  | .leave i now => start ≤ now ∧ (σ.nodes i).FreshRosters now f.app.id f.channel
  | .publish _ => True
  | .deliver i now =>
    now < start + withheldWindow ∧ (σ.nodes i).FreshRosters now f.app.id f.channel

instance (f : Setting ι) (start : Instant) (σ : Fleet ι) :
    (label : Label ι) → Decidable (Timely f start σ label)
  | .leave i now => inferInstanceAs (Decidable
    (start ≤ now ∧ (σ.nodes i).FreshRosters now f.app.id f.channel))
  | .publish _ => inferInstanceAs (Decidable True)
  | .deliver i now => inferInstanceAs (Decidable
    (now < start + withheldWindow ∧ (σ.nodes i).FreshRosters now f.app.id f.channel))

variable (i j k : Fin 3) {start : Instant} {σ₀ σ : Fleet ι}

theorem inv_step (hStart : Start f σ₀) (σ : Fleet ι) (label : Label ι) (τ : Fleet ι)
    (h : Inv f start σ₀ σ) (hTimely : Timely f start σ label) (hStep : step f σ label = some τ) :
    Inv f start σ₀ τ := by
  cases label with
  | leave i now =>
    rw [step] at hStep
    split at hStep <;> cases hStep
    rename_i hHere
    exact h.leave hStart (isNone_iff_eq_none.mp hHere) hTimely.1 hTimely.2
  | publish i =>
    obtain ⟨env, hNext, rfl⟩ := map_eq_some_iff.mp hStep
    exact h.publish hNext
  | deliver i now =>
    obtain ⟨m, hNext, rfl⟩ := map_eq_some_iff.mp hStep
    exact h.deliver hStart hNext hTimely.1 hTimely.2

theorem Inv.all_announced (h : Inv f start σ₀ σ) (hDone : Done σ) (i : ι) :
    i ∈ σ.progress.order := by
  obtain ⟨flag, -, hPublished⟩ := (h.party i).gone (hDone.left i)
  have hShipped := (h.party i).shipped
  rw [hDone.shipped, hPublished, length_append, length_singleton] at hShipped
  by_contra hMissing
  rw [if_neg hMissing] at hShipped
  omega

theorem Party.webhooksSince {i : ι} (h : Party f start σ₀ σ i) :
    Spoken f ((σ₀.nodes i).webhooksSince (σ.nodes i)) (σ.progress.Speaks f.ids i) := by
  obtain ⟨new, hWebhooks, hSpoken⟩ := h.spoken
  rw [Node.webhooksSince, hWebhooks, drop_left]
  exact hSpoken

/-- When everybody has left and heard of everybody, the removal of the user and
the vacancy of the channel have been reported once each exactly when the last
announcement on the bus settles it. -/
theorem reported_once_iff_settles [Fintype ι] [Nonempty ι] {σ₀ : Fleet ι} (hStart : Start f σ₀)
    (start : Instant) (run : List (Label ι))
    (hTimely : EachStep (step f) (Timely f start) σ₀ run) (σ : Fleet ι)
    (hRun : exec (step f) σ₀ run = some σ) (hDone : Done σ) :
    (reports f σ₀ σ (.MemberRemoved f.channel f.user) = 1 ↔ σ.progress.Settles f.ids) ∧
      (reports f σ₀ σ (.ChannelVacated f.channel) = 1 ↔ σ.progress.Settles f.ids) := by
  have h : Inv f start σ₀ σ :=
    (always_of_step (inv_step hStart) (hStart.inv start) hTimely).of_exec hRun
  have hHeard (i : ι) : σ.progress.taken i = σ.progress.order.length := by
    change σ.taken i = (σ.bus.map Prod.fst).length
    rw [List.length_map]
    exact hDone.taken i
  have hSpoken (i : ι) := (h.party i).webhooksSince
  have hUnique := Progress.existsUnique_speaks_iff hStart.distinct h.valid
    (h.all_announced hDone) hHeard
  constructor
  · rw [← hUnique]
    exact sum_eq_one_iff_existsUnique (fun i hs => ((hSpoken i).once hs).1)
      (fun i hs => ((hSpoken i).never hs).1)
  · rw [← hUnique]
    exact sum_eq_one_iff_existsUnique (fun i hs => ((hSpoken i).once hs).2)
      (fun i hs => ((hSpoken i).never hs).2)

/-! ## An example fleet -/

def exampleSetting : Setting (Fin 3) where
  ids i := if i = 0 then "node-a" else if i = 1 then "node-b" else "node-c"
  app := exampleApp
  channel := "presence-room"
  user := "alice"
  socket i := if i = 0 then "1.1" else if i = 1 then "2.1" else "3.1"

def joinedNode (i : Fin 3) : Node :=
  (Node.new (exampleSetting.ids i) true exampleTable).handleSubscribe 0 exampleApp
    (exampleSetting.socket i) "presence-room" (some ⟨"alice", none⟩)

def exampleCache (j k : Fin 3) : PresenceCache :=
  ((PresenceCache.new.addLive 0 "app" "presence-room" (exampleSetting.ids j) "alice"
    none).2.addLive 0 "app" "presence-room" (exampleSetting.ids k) "alice" none).2

def exampleNode (i j k : Fin 3) : Node :=
  (joinedNode i).setServer ((joinedNode i).withPresenceCache (exampleCache j k))

def exampleFleet : Fleet (Fin 3) where
  nodes i := exampleNode i (i + 1) (i + 2)
  bus := []
  shipped _ := 1
  taken _ := 0
  left _ := none

theorem memberOf_joinedNode (t : String) : (joinedNode i).memberOf "app" "presence-room" t =
      if t = exampleSetting.socket i then some ⟨some ⟨"alice", none⟩⟩ else none := by
  have hAdmitted : ((Node.new (exampleSetting.ids i) true exampleTable).admission 0 exampleApp
      "presence-room" (some ⟨"alice", none⟩)).admitted = true := by
    revert i
    decide
  have hNone : (Node.new (exampleSetting.ids i) true exampleTable).memberOf "app"
      "presence-room" t =
      none := rfl
  have hId : ("app" : String) = exampleApp.id := rfl
  rw [joinedNode, memberOf_handleSubscribe, hAdmitted, hNone]
  simp only [and_true, hId, true_and, getD_none]

theorem lists_exampleCache (n v : String) : (exampleCache j k).Lists "app" "presence-room" n v ↔
      v = "alice" ∧ (n = exampleSetting.ids j ∨ n = exampleSetting.ids k) := by
  have hNone : ¬ PresenceCache.new.Lists "app" "presence-room" n v := by
    rintro ⟨peer, hPeer, -⟩
    cases hPeer
  rw [exampleCache, PresenceCache.lists_addLive, PresenceCache.lists_addLive]
  simp only [hNone, true_and, or_false]
  tauto

theorem stands_withPresenceCache {node : Node} {cache : PresenceCache} {app : Application}
    {c u s : String} {here : Bool} {rest : String → Prop}
    (hConfig : node.config app.id = some app) (hWellFormed : node.WellFormed)
    (hMember : here = true → ∃ m, node.memberOf app.id c s = some m ∧ m.user = some u)
    (hOthers : ∀ t, (node.memberOf app.id c t).isSome = true → here = true ∧ t = s)
    (hLists : ∀ n v, cache.Lists app.id c n v ↔ v = u ∧ rest n) :
    (node.setServer (node.withPresenceCache cache)).Stands app c u s here rest :=
  ⟨hConfig, hWellFormed, hMember, hOthers, hLists⟩

theorem exampleNode_stands :
    (exampleNode i j k).Stands exampleApp "presence-room" "alice" (exampleSetting.socket i) true
      (fun n => n = exampleSetting.ids j ∨ n = exampleSetting.ids k) := by
  have hConfig : (joinedNode i).config = exampleTable := (handleSubscribe_same ..).2
  have hNew : (Node.new (exampleSetting.ids i) true exampleTable).WellFormed :=
    (new_faithful (exampleSetting.ids i) true exampleTable fun _ _ _ => False).wellFormed
  have hJoined : (joinedNode i).WellFormed :=
    hNew.handleSubscribe 0 exampleApp (exampleSetting.socket i) "presence-room" (by decide)
  refine stands_withPresenceCache ?_ hJoined (fun _ => ⟨⟨some ⟨"alice", none⟩⟩, ?_, rfl⟩)
    (fun t hSome => ?_) (lists_exampleCache j k)
  · rw [hConfig]
    rfl
  · exact (memberOf_joinedNode i _).trans (if_pos rfl)
  · have hMember := memberOf_joinedNode i t
    change (joinedNode i).memberOf exampleApp.id "presence-room" t = _ at hMember
    rw [hMember] at hSome
    split at hSome
    · rename_i hSocket
      exact ⟨rfl, hSocket⟩
    · cases hSome

theorem exampleFleet_start : Start exampleSetting exampleFleet where
  presence := by decide
  distinct := by decide
  bus := rfl
  taken _ := rfl
  left _ := rfl
  shipped := by decide
  nodeId := by decide
  scaling := by decide
  stands i := by
    refine (exampleNode_stands i (i + 1) (i + 2)).congr fun n => ?_
    have hOthers : ∀ i j : Fin 3, j ≠ i ↔ j = i + 1 ∨ j = i + 2 := by decide
    simp only [hOthers, or_and_right, exists_or, exists_eq_left]
  heard := by decide

/-- All leave before any of them hears of another, and `node-a` announces last. -/
def lowestLastRun : List (Label (Fin 3)) :=
  [.leave 0 1, .leave 1 1, .leave 2 1, .publish 1, .publish 2, .publish 0,
    .deliver 0 2, .deliver 0 2, .deliver 0 2, .deliver 1 2, .deliver 1 2, .deliver 1 2,
    .deliver 2 2, .deliver 2 2, .deliver 2 2]

/-- All leave before any of them hears of another, and `node-c` announces last. -/
def highestLastRun : List (Label (Fin 3)) :=
  [.leave 0 1, .leave 1 1, .leave 2 1, .publish 0, .publish 1, .publish 2,
    .deliver 0 2, .deliver 0 2, .deliver 0 2, .deliver 1 2, .deliver 1 2, .deliver 1 2,
    .deliver 2 2, .deliver 2 2, .deliver 2 2]

def done (σ : Fleet (Fin 3)) : Bool :=
  decide (∀ i, (σ.left i).isSome = true ∧
    σ.shipped i = (σ.nodes i).dispatcher.published.length ∧ σ.taken i = σ.bus.length)

theorem done_iff (σ : Fleet (Fin 3)) : done σ = true ↔ Done σ := by
  rw [done, decide_eq_true_eq]
  constructor
  · intro h
    exact ⟨fun i => (h i).1, fun i => (h i).2.1, fun i => (h i).2.2⟩
  · intro h i
    exact ⟨h.left i, h.shipped i, h.taken i⟩

theorem lowestLastRun_reported_once :
    ∃ σ, exec (step exampleSetting) exampleFleet lowestLastRun = some σ ∧ Done σ ∧
      reports exampleSetting exampleFleet σ (.MemberRemoved "presence-room" "alice") = 1 ∧
      reports exampleSetting exampleFleet σ (.ChannelVacated "presence-room") = 1 := by
  have hResult : (exec (step exampleSetting) exampleFleet lowestLastRun).map (fun σ =>
      (done σ, σ.bus.map Prod.fst)) = some (true, [1, 2, 0]) := by decide
  obtain ⟨σ, hRun, hValues⟩ := Option.map_eq_some_iff.mp hResult
  simp only [Prod.mk.injEq, done_iff] at hValues
  have hSettles : σ.progress.Settles exampleSetting.ids :=
    ⟨[1, 2], 0, hValues.2, Or.inr (Or.inl (by decide))⟩
  have hOnce := reported_once_iff_settles exampleFleet_start 0 lowestLastRun (by decide) σ hRun
    hValues.1
  exact ⟨σ, hRun, hValues.1, hOnce.1.mpr hSettles, hOnce.2.mpr hSettles⟩

/-- Both `node-a` and `node-b` report what `node-c` withheld. -/
theorem highestLastRun_reported_twice : Start exampleSetting exampleFleet ∧
      EachStep (step exampleSetting) (Timely exampleSetting 0) exampleFleet highestLastRun ∧
      ∃ σ, exec (step exampleSetting) exampleFleet highestLastRun = some σ ∧ Done σ ∧
        reports exampleSetting exampleFleet σ (.MemberRemoved "presence-room" "alice") = 2 ∧
        reports exampleSetting exampleFleet σ (.ChannelVacated "presence-room") = 2 := by
  have hResult : (exec (step exampleSetting) exampleFleet highestLastRun).map (fun σ =>
      (done σ, reports exampleSetting exampleFleet σ (.MemberRemoved "presence-room" "alice"),
        reports exampleSetting exampleFleet σ (.ChannelVacated "presence-room"))) =
      some (true, 2, 2) := by decide
  obtain ⟨σ, hRun, hValues⟩ := Option.map_eq_some_iff.mp hResult
  simp only [Prod.mk.injEq, done_iff] at hValues
  exact ⟨exampleFleet_start, by decide, σ, hRun, hValues⟩

end Zatat.LeavingFleet
