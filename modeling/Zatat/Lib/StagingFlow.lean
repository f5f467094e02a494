import Mathlib.Data.List.Nodup
import Mathlib.Data.List.Perm.Subperm
import Zatat.Lib.Staging

/-! # Where staged messages are

As long as the forwarder runs, every accepted message is in the queue or through
it, in the forwarder, in the staging channel or with its producer, and each
producer's messages are there in the order it issued them.
-/

namespace Staging

open Function List

universe u v

variable {ι : Type u} {α : Type v} [DecidableEq ι] {items : List (Item ι α)}

/-! ## What a step can do -/

inductive Acts (cfg : Config α) (σ : State ι α) : Label ι α → State ι α → Prop where
  | issue {p : ι} (hIdle : σ.producers p = .idle) (message : α) :
      Acts cfg σ (.issue p message) (issue cfg σ p message)
  | send {p : ι} {item : Item ι α} {amount : Nat}
      (hReserved : σ.producers p = .reserved item amount) :
      Acts cfg σ (.send p) (send σ p item amount)
  | release {p : ι} {item : Item ι α} {amount : Nat}
      (hRefused : σ.producers p = .refused item amount) :
      Acts cfg σ (.release p) ((σ.giveBack item amount).setProducer p .idle)
  | receive {item : Item ι α} {rest : List (Item ι α)} (hWaiting : σ.forwarder = .waiting)
      (hStaging : σ.staging = item :: rest) :
      Acts cfg σ .receive
        { σ with forwarder := .holding item (cfg.size item.message), staging := rest }
  | forward {item : Item ι α} {amount : Nat} {τ : State ι α}
      (hHolding : σ.forwarder = .holding item amount) (hStep : forward cfg σ item amount = some τ) :
      Acts cfg σ .forward τ
  | settleSent {item : Item ι α} {amount : Nat} (hSent : σ.forwarder = .sent item amount) :
      Acts cfg σ .settle { σ.giveBack item amount with forwarder := .waiting }
  | settleFailed {item : Item ι α} {amount : Nat} (hFailed : σ.forwarder = .failed item amount) :
      Acts cfg σ .settle { σ.giveBack item amount with forwarder := .leaving item }
  | stop {item : Item ι α} (hLeaving : σ.forwarder = .leaving item) :
      Acts cfg σ .stop { σ with forwarder := .stopped, staging := [] }
  | take {n : Nat} (hSome : 0 < n ∧ n ≤ σ.queue.length) :
      Acts cfg σ (.take n) { σ with queue := σ.queue.drop n }
  | close : Acts cfg σ .close { σ with queueOpen := false, queue := [] }

theorem acts_of_step {cfg : Config α} {σ τ : State ι α} {label : Label ι α}
    (h : step cfg σ label = some τ) : Acts cfg σ label τ := by
  cases label with
  | issue p message =>
    rw [step] at h
    split at h <;> cases h
    exact .issue ‹_› message
  | send p =>
    rw [step] at h
    split at h <;> cases h
    exact .send ‹_›
  | release p =>
    rw [step] at h
    split at h <;> cases h
    exact .release ‹_›
  | receive =>
    rw [step] at h
    split at h <;> cases h
    exact .receive ‹_› ‹_›
  | forward =>
    rw [step] at h
    split at h
    · exact .forward ‹_› h
    · cases h
  | settle =>
    rw [step] at h
    split at h
    · cases h
      exact .settleSent ‹_›
    · cases h
      exact .settleFailed ‹_›
    · cases h
  | stop =>
    rw [step] at h
    split at h <;> cases h
    exact .stop ‹_›
  | take n =>
    obtain ⟨hSome, hEq⟩ := Option.ite_none_right_eq_some.mp h
    cases hEq
    exact .take hSome
  | close =>
    cases h
    exact .close

/-! ## Where the messages are -/

def Producer.own : Producer ι α → List (Item ι α)
  | .reserved item _ => [item]
  | _ => []

def Producer.Sound (cfg : Config α) (p : ι) : Producer ι α → Prop
  | .idle => True
  | .reserved item amount => item.producer = p ∧ amount = cfg.size item.message
  | .refused _ _ => False

def State.pipeline (σ : State ι α) : List (Item ι α) :=
  σ.entered ++ σ.forwarder.unsent ++ σ.staging

/-- What is known of the messages themselves, wherever they are. -/
structure Logged (issued dropped accepted : List (Item ι α)) (drops : Nat) : Prop where
  numbered : ∀ i ∈ issued, i.number < (ofProducer i.producer issued).length
  nodup : issued.Nodup
  split : issued.Perm (dropped ++ accepted)
  sublist : accepted.Sublist issued
  counted : drops = dropped.length

/-- As long as the forwarder runs, nothing is lost and nobody overtakes. -/
structure Flow (cfg : Config α) (σ : State ι α) : Prop where
  running : σ.forwarder ≠ .stopped
  logged : Logged σ.issued σ.dropped σ.accepted σ.drops
  flow : ∀ p, ofProducer p σ.accepted = ofProducer p σ.pipeline ++ (σ.producers p).own
  sound : ∀ p, (σ.producers p).Sound cfg p
  direct : cfg.overflow = .bestEffort →
    σ.staging = [] ∧ σ.forwarder = .waiting ∧ (∀ p, σ.producers p = .idle) ∧ σ.queueOpen = true

theorem mem_ofProducer {p : ι} {item : Item ι α} :
    item ∈ ofProducer p items ↔ item ∈ items ∧ item.producer = p := by
  rw [ofProducer, mem_filter, decide_eq_true_eq]

theorem ofProducer_append (p : ι) (l l' : List (Item ι α)) :
    ofProducer p (l ++ l') = ofProducer p l ++ ofProducer p l' :=
  filter_append ..

theorem ofProducer_singleton (p : ι) (item : Item ι α) :
    ofProducer p [item] = if item.producer = p then [item] else [] := by
  by_cases h : item.producer = p <;> simp [ofProducer, h]

theorem exists_perm_append {β : Type*} {part all : List β} (hNodup : part.Nodup)
    (hPart : part ⊆ all) : ∃ rest, all.Perm (part ++ rest) := by
  obtain ⟨part', hPerm, hSublist⟩ := hNodup.subperm hPart
  obtain ⟨rest, hRest⟩ := hSublist.exists_perm_append
  exact ⟨rest, hRest.trans (hPerm.append_right rest)⟩

theorem nodup_of_ofProducer (h : ∀ p, (ofProducer p items).Nodup) : items.Nodup := by
  induction items with
  | nil => exact nodup_nil
  | cons item items ih =>
    have hCons : ofProducer item.producer (item :: items) =
        item :: ofProducer item.producer items := by simp [ofProducer]
    have hSelf := h item.producer
    rw [hCons, nodup_cons] at hSelf
    refine nodup_cons.mpr ⟨fun hMem => hSelf.1 ?_, ih fun p => ?_⟩
    · exact mem_ofProducer.mpr ⟨hMem, rfl⟩
    · exact (h p).sublist ((sublist_cons_self item items).filter _)

variable {issued dropped accepted : List (Item ι α)} {drops : Nat} {item : Item ι α}

section

variable (h : Logged issued dropped accepted drops)

include h

theorem Logged.append (hNumber : item.number = (ofProducer item.producer issued).length) :
    (∀ i ∈ issued ++ [item], i.number < (ofProducer i.producer (issued ++ [item])).length) ∧
      (issued ++ [item]).Nodup := by
  refine ⟨fun i hi => ?_, ?_⟩
  · rw [ofProducer_append, length_append, ofProducer_singleton]
    rcases mem_append.mp hi with hOld | hNew
    · exact Nat.lt_of_lt_of_le (h.numbered i hOld) (Nat.le_add_right ..)
    · cases mem_singleton.mp hNew
      rw [hNumber, if_pos rfl]
      exact Nat.lt_succ_self _
  · refine nodup_append.mpr ⟨h.nodup, nodup_singleton item, fun i hi j hj hEq => ?_⟩
    cases mem_singleton.mp hj
    have hLess := h.numbered i hi
    rw [hEq, hNumber] at hLess
    exact Nat.lt_irrefl _ hLess

theorem Logged.drop (hNumber : item.number = (ofProducer item.producer issued).length) :
    Logged (issued ++ [item]) (dropped ++ [item]) accepted (drops + 1) where
  numbered := (h.append hNumber).1
  nodup := (h.append hNumber).2
  split := by
    have hPerm : (issued ++ [item]).Perm (dropped ++ (accepted ++ [item])) := by
      rw [← append_assoc]
      exact h.split.append_right [item]
    rw [append_assoc]
    exact hPerm.trans (perm_append_comm.append_left dropped)
  sublist := h.sublist.trans (sublist_append_left ..)
  counted := by rw [h.counted, length_append, length_singleton]

theorem Logged.accept (hNumber : item.number = (ofProducer item.producer issued).length) :
    Logged (issued ++ [item]) dropped (accepted ++ [item]) drops where
  numbered := (h.append hNumber).1
  nodup := (h.append hNumber).2
  split := by
    rw [← append_assoc]
    exact h.split.append_right [item]
  sublist := h.sublist.append (List.Sublist.refl [item])
  counted := h.counted

end

namespace Flow

variable {cfg : Config α} {σ : State ι α} {item : Item ι α} {p : ι} {amount : Nat} {τ : State ι α}

section

variable (h : Flow cfg σ)

include h

theorem accepted_nodup : σ.accepted.Nodup :=
  h.logged.nodup.sublist h.logged.sublist

theorem pipeline_nodup : σ.pipeline.Nodup := by
  refine nodup_of_ofProducer fun p => ?_
  have hAccepted := h.accepted_nodup.filter fun i => decide (i.producer = p)
  have hFlow := h.flow p
  rw [ofProducer] at hFlow
  rw [hFlow] at hAccepted
  exact hAccepted.of_append_left

theorem mem_accepted_iff :
    item ∈ σ.accepted ↔ item ∈ σ.pipeline ∨ item ∈ (σ.producers item.producer).own := by
  have hOwn : item ∈ σ.accepted ↔ item ∈ ofProducer item.producer σ.accepted :=
    (mem_ofProducer.trans (and_iff_left rfl)).symm
  rw [hOwn, h.flow, mem_append, mem_ofProducer, and_iff_left rfl]

theorem not_own_of_pipeline (hMem : item ∈ σ.pipeline) :
    item ∉ (σ.producers item.producer).own := by
  have hAccepted := h.accepted_nodup.filter fun i => decide (i.producer = item.producer)
  have hFlow := h.flow item.producer
  rw [ofProducer] at hFlow
  rw [hFlow] at hAccepted
  exact disjoint_of_nodup_append hAccepted (mem_ofProducer.mpr ⟨hMem, rfl⟩)

theorem not_dropped_of_accepted (hMem : item ∈ σ.accepted) : item ∉ σ.dropped := by
  have hBoth := h.logged.split.nodup_iff.mp h.logged.nodup
  exact fun hDropped => disjoint_of_nodup_append hBoth hDropped hMem

theorem not_refused (hRefused : σ.producers p = .refused item amount) : False := by
  have hSound := h.sound p
  rw [hRefused] at hSound
  exact hSound

theorem mem_own (hHolds : ∃ p amount,
    σ.producers p = .reserved item amount ∨ σ.producers p = .refused item amount) :
    item ∈ (σ.producers item.producer).own := by
  obtain ⟨p, amount, hReserved | hRefused⟩ := hHolds
  · have hSound := h.sound p
    rw [hReserved] at hSound
    rw [hSound.1, hReserved]
    exact mem_singleton.mpr rfl
  · exact (h.not_refused hRefused).elim

theorem held_iff : σ.Held item ↔ item ∈ (σ.producers item.producer).own ∨ item ∈ σ.staging ∨
      item ∈ σ.forwarder.unsent := by
  refine or_congr_left ⟨h.mem_own, fun hOwn => ?_⟩
  cases hProducer : σ.producers item.producer with
  | reserved own amount =>
    rw [hProducer] at hOwn
    cases mem_singleton.mp hOwn
    exact ⟨_, amount, .inl hProducer⟩
  | idle | refused =>
    rw [hProducer] at hOwn
    cases hOwn

theorem settled (hMem : item ∈ σ.issued) : σ.Settled item := by
  have hParts : σ.Held item → item ∈ σ.accepted ∧ item ∉ σ.entered := fun hHeld => by
    have hNodup := h.pipeline_nodup
    rw [State.pipeline, append_assoc] at hNodup
    rcases h.held_iff.mp hHeld with hOwn | hLater
    · refine ⟨h.mem_accepted_iff.mpr (.inr hOwn), fun hEntered => ?_⟩
      exact h.not_own_of_pipeline (mem_append_left _ (mem_append_left _ hEntered)) hOwn
    · have hTail : item ∈ σ.forwarder.unsent ++ σ.staging :=
        mem_append.mpr hLater.symm
      refine ⟨h.mem_accepted_iff.mpr (.inl ?_), fun hEntered => ?_⟩
      · rw [State.pipeline, append_assoc]
        exact mem_append_right _ hTail
      · exact disjoint_of_nodup_append hNodup hEntered hTail
  have hEnters : item ∈ σ.entered → item ∈ σ.accepted := fun hEntered =>
    h.mem_accepted_iff.mpr (.inl (mem_append_left _ (mem_append_left _ hEntered)))
  rcases mem_append.mp (h.logged.split.mem_iff.mp hMem) with hDropped | hAccepted
  · have hNot : item ∉ σ.accepted := fun hAccepted => h.not_dropped_of_accepted hAccepted hDropped
    exact .inl ⟨hDropped, fun hHeld => hNot (hParts hHeld).1, fun hIn => hNot (hEnters hIn)⟩
  · have hNot := h.not_dropped_of_accepted hAccepted
    by_cases hIn : item ∈ σ.entered
    · exact .inr (.inr ⟨hNot, fun hHeld => (hParts hHeld).2 hIn, hIn⟩)
    · refine .inr (.inl ⟨hNot, h.held_iff.mpr ?_, hIn⟩)
      rcases h.mem_accepted_iff.mp hAccepted with hPipeline | hOwn
      · rw [State.pipeline, mem_append, mem_append] at hPipeline
        exact .inr (hPipeline.symm.imp_right (Or.resolve_left · hIn))
      · exact .inl hOwn

end

/-! ### One step -/

theorem new (cfg : Config α) : Flow cfg (State.new : State ι α) where
  running hStopped := by cases hStopped
  logged := ⟨fun _ hi => (not_mem_nil hi).elim, nodup_nil, .refl _, .refl _, rfl⟩
  flow _ := rfl
  sound _ := trivial
  direct _ := ⟨rfl, rfl, fun _ => rfl, rfl⟩

section

variable (h : Flow cfg σ)

include h

theorem drop (p : ι) (message : α) : Flow cfg (σ.drop (σ.nextItem p message)) where
  running := h.running
  logged := h.logged.drop rfl
  flow := h.flow
  sound := h.sound
  direct := h.direct

theorem sound_setProducer {producer : Producer ι α} (hNew : producer.Sound cfg p) (q : ι) :
    ((σ.setProducer p producer).producers q).Sound cfg q :=
  (forall_update_iff σ.producers fun q x => x.Sound cfg q).mpr ⟨hNew, fun q _ => h.sound q⟩ q

theorem trySend (hDirect : cfg.overflow = .bestEffort) (p : ι) (message : α) :
    Flow cfg (trySend cfg σ (σ.nextItem p message)) := by
  obtain ⟨hStaging, hForwarder, hIdle, hOpen⟩ := h.direct hDirect
  rw [Staging.trySend, if_pos hOpen]
  split
  · refine ⟨h.running, h.logged.accept rfl, fun q => ?_, h.sound, h.direct⟩
    have hFlow := h.flow q
    rw [State.pipeline, hStaging, hForwarder, hIdle] at hFlow
    change ofProducer q (σ.accepted ++ [σ.nextItem p message]) =
      ofProducer q (σ.entered ++ [σ.nextItem p message] ++ σ.forwarder.unsent ++ σ.staging) ++
        (σ.producers q).own
    rw [hStaging, hForwarder, hIdle, ofProducer_append, hFlow]
    simp only [Forwarder.unsent, Producer.own, append_nil, ofProducer_append]
  · exact h.drop p message

theorem reserve (hBlock : cfg.overflow = .block) (hIdle : σ.producers p = .idle) (message : α) :
    Flow cfg (reserve cfg σ (σ.nextItem p message)) := by
  rw [Staging.reserve]
  dsimp only
  split
  · refine ⟨h.running, h.logged.accept rfl, fun q => ?_, ?_, fun hDirect => ?_⟩
    · change ofProducer q (σ.accepted ++ [σ.nextItem p message]) =
        ofProducer q σ.pipeline ++ (update σ.producers p
          (.reserved (σ.nextItem p message) (cfg.size message)) q).own
      rw [ofProducer_append, h.flow, ofProducer_singleton]
      by_cases hq : q = p
      · rw [hq, hIdle, update_self]
        exact congrArg₂ _ (append_nil _) (if_pos rfl)
      · rw [update_of_ne hq, if_neg (fun hEq => hq hEq.symm), append_nil]
    · exact h.sound_setProducer ⟨rfl, rfl⟩
    · rw [hBlock] at hDirect
      cases hDirect
  · exact h.drop p message

theorem issue (hIdle : σ.producers p = .idle) (message : α) : Flow cfg (issue cfg σ p message) := by
  rw [Staging.issue]
  split
  · rename_i hDirect
    exact h.trySend hDirect p message
  · rename_i hBlock
    exact h.reserve hBlock hIdle message

theorem send (hReserved : σ.producers p = .reserved item amount) :
    Flow cfg (send σ p item amount) := by
  have hOwner := h.sound p
  rw [hReserved] at hOwner
  rw [Staging.send]
  split
  · rename_i hStopped
    exact absurd hStopped h.running
  · refine ⟨h.running, h.logged, fun q => ?_, h.sound_setProducer trivial, fun hDirect => ?_⟩
    · change ofProducer q σ.accepted =
        ofProducer q (σ.entered ++ σ.forwarder.unsent ++ (σ.staging ++ [item])) ++
          (update σ.producers p .idle q).own
      rw [← append_assoc, ofProducer_append, ofProducer_singleton, h.flow, State.pipeline]
      by_cases hq : q = p
      · rw [hq, hReserved, update_self, if_pos hOwner.1]
        exact (append_nil _).symm
      · rw [update_of_ne hq, if_neg (fun hEq => hq (hEq.symm.trans hOwner.1)), append_nil]
    · have hIdle := (h.direct hDirect).2.2.1 p
      rw [hReserved] at hIdle
      cases hIdle

theorem move (hLogs : τ.issued = σ.issued ∧ τ.dropped = σ.dropped ∧ τ.accepted = σ.accepted ∧
      τ.drops = σ.drops) (hProducers : τ.producers = σ.producers)
    (hRunning : τ.forwarder ≠ .stopped) (hSame : τ.pipeline = σ.pipeline)
    (hDirect : cfg.overflow = .bestEffort →
      τ.staging = [] ∧ τ.forwarder = .waiting ∧ τ.queueOpen = true) : Flow cfg τ := by
  obtain ⟨hIssued, hDropped, hAccepted, hDrops⟩ := hLogs
  refine ⟨hRunning, ?_, ?_, ?_, fun hBest => ?_⟩
  · rw [hIssued, hDropped, hAccepted, hDrops]
    exact h.logged
  · rw [hAccepted, hSame, hProducers]
    exact h.flow
  · rw [hProducers]
    exact h.sound
  · obtain ⟨hStaging, hWaiting, hOpen⟩ := hDirect hBest
    rw [hProducers]
    exact ⟨hStaging, hWaiting, (h.direct hBest).2.2.1, hOpen⟩

theorem not_bestEffort (hBusy : σ.forwarder ≠ .waiting ∨ σ.staging ≠ []) :
    cfg.overflow ≠ .bestEffort := fun hBest =>
  hBusy.elim (· (h.direct hBest).2.1) (· (h.direct hBest).1)

theorem receive {rest : List (Item ι α)} (hWaiting : σ.forwarder = .waiting)
    (hStaging : σ.staging = item :: rest) (amount : Nat) :
    Flow cfg { σ with forwarder := .holding item amount, staging := rest } := by
  refine h.move ⟨rfl, rfl, rfl, rfl⟩ rfl (fun hStopped => by cases hStopped) ?_ fun hBest =>
    absurd hBest (h.not_bestEffort (.inr (hStaging ▸ cons_ne_nil item rest)))
  change σ.entered ++ [item] ++ rest = σ.pipeline
  rw [State.pipeline, hWaiting, hStaging]
  simp only [Forwarder.unsent, append_nil, append_assoc, singleton_append]

theorem forward (hHolding : σ.forwarder = .holding item amount)
    (hStep : forward cfg σ item amount = some τ) : Flow cfg τ := by
  have hBlock : cfg.overflow ≠ .bestEffort :=
    h.not_bestEffort (.inl fun hWaiting => by rw [hHolding] at hWaiting; cases hWaiting)
  rw [Staging.forward] at hStep
  split at hStep
  · obtain ⟨-, hEq⟩ := Option.ite_none_right_eq_some.mp hStep
    cases hEq
    refine h.move ⟨rfl, rfl, rfl, rfl⟩ rfl (fun hStopped => by cases hStopped) ?_
      fun hBest => absurd hBest hBlock
    change σ.entered ++ [item] ++ [] ++ σ.staging = σ.pipeline
    rw [State.pipeline, hHolding, append_nil]
    rfl
  · cases hStep
    refine h.move ⟨rfl, rfl, rfl, rfl⟩ rfl (fun hStopped => by cases hStopped) ?_
      fun hBest => absurd hBest hBlock
    change σ.entered ++ [item] ++ σ.staging = σ.pipeline
    rw [State.pipeline, hHolding]
    rfl

theorem settle {next : Forwarder ι α} (hBusy : σ.forwarder ≠ .waiting) (hRunning : next ≠ .stopped)
    (hSame : next.unsent = σ.forwarder.unsent) :
    Flow cfg { σ.giveBack item amount with forwarder := next } := by
  refine h.move ⟨rfl, rfl, rfl, rfl⟩ rfl hRunning ?_
    fun hBest => absurd hBest (h.not_bestEffort (.inl hBusy))
  change σ.entered ++ next.unsent ++ σ.staging = σ.pipeline
  rw [hSame]
  rfl

theorem step {label : Label ι α} (hKeeps : label ≠ .stop)
    (hClose : label = .close → cfg.overflow ≠ .bestEffort) (hStep : step cfg σ label = some τ) :
    Flow cfg τ := by
  cases acts_of_step hStep with
  | issue hIdle message => exact h.issue hIdle message
  | send hReserved => exact h.send hReserved
  | release hRefused => exact (h.not_refused hRefused).elim
  | receive hWaiting hStaging => exact h.receive hWaiting hStaging _
  | forward hHolding hForward => exact h.forward hHolding hForward
  | settleSent hSent =>
    refine h.settle (fun hWaiting => ?_) (fun hStopped => by cases hStopped) ?_
    · rw [hSent] at hWaiting
      cases hWaiting
    · rw [hSent]
      rfl
  | settleFailed hFailed =>
    refine h.settle (fun hWaiting => ?_) (fun hStopped => by cases hStopped) ?_
    · rw [hFailed] at hWaiting
      cases hWaiting
    · rw [hFailed]
      rfl
  | stop hLeaving => exact absurd rfl hKeeps
  | take hSome =>
    exact h.move ⟨rfl, rfl, rfl, rfl⟩ rfl h.running rfl fun hBest =>
      ⟨(h.direct hBest).1, (h.direct hBest).2.1, (h.direct hBest).2.2.2⟩
  | close =>
    exact h.move ⟨rfl, rfl, rfl, rfl⟩ rfl h.running rfl fun hBest => absurd hBest (hClose rfl)

theorem exists_rest {part : List (Item ι α)} (hPart : part.Sublist σ.pipeline) :
    ∃ rest, σ.accepted.Perm (part ++ rest) :=
  exists_perm_append (h.pipeline_nodup.sublist hPart)
    fun _ hMem => h.mem_accepted_iff.mpr (.inl (hPart.subset hMem))

end

omit [DecidableEq ι] in
theorem entered_sublist (σ : State ι α) : σ.entered.Sublist σ.pipeline := by
  rw [State.pipeline, append_assoc]
  exact sublist_append_left ..

theorem prefix_entered (h : Flow cfg σ) (p : ι) :
    ofProducer p σ.entered <+: ofProducer p σ.accepted := by
  rw [h.flow, State.pipeline, append_assoc, ofProducer_append, append_assoc]
  exact prefix_append ..

end Flow

end Staging
