import Zatat.Lib.Run
import Zatat.Lib.StagingFlow

/-! # Staged messages are accounted for

The byte counter is the size of what was accepted and has not been given back.
Everything is accounted for as long as the forwarder runs; when it leaves its
loop, a message is gone that no counter knows of. While the queue stays open no
send fails, and a counter at zero means that nothing is on its way.
-/

namespace Staging

open Transition List

universe u v

variable {ι : Type u} {α : Type v} [DecidableEq ι]

/-! ## Where the bytes are -/

def Config.entry (cfg : Config α) (item : Item ι α) : Item ι α × Nat :=
  (item, cfg.size item.message)

def Forwarder.unsettled : Forwarder ι α → List (Item ι α × Nat)
  | .sent item amount => [(item, amount)]
  | _ => []

def Forwarder.abandoned : Forwarder ι α → List (Item ι α)
  | .leaving item => [item]
  | _ => []

def Forwarder.Sound (cfg : Config α) : Forwarder ι α → Prop
  | .holding item amount | .sent item amount | .failed item amount =>
    amount = cfg.size item.message
  | _ => True

structure Ledger (cfg : Config α) (σ : State ι α) : Prop where
  reserved : σ.reserved = σ.accepted.map cfg.entry
  released : σ.released ++ σ.forwarder.unsettled =
    (σ.entered ++ σ.forwarder.abandoned).map cfg.entry
  sound : σ.forwarder.Sound cfg
  bytes : σ.bytes + (σ.released.map Prod.snd).sum = (σ.reserved.map Prod.snd).sum
  bounded : σ.bytes ≤ cfg.limit

namespace Ledger

variable {cfg : Config α} {σ : State ι α}

omit [DecidableEq ι] in
theorem new (cfg : Config α) : Ledger cfg (State.new : State ι α) :=
  ⟨rfl, rfl, trivial, rfl, Nat.zero_le _⟩

variable (h : Ledger cfg σ)

include h

omit [DecidableEq ι] in
theorem le_bytes {part : List (Item ι α)} {amount : Nat}
    (hPart : ∃ rest, σ.accepted.Perm (part ++ rest))
    (hSum : (σ.released.map Prod.snd).sum + amount = ((part.map cfg.entry).map Prod.snd).sum) :
    amount ≤ σ.bytes := by
  obtain ⟨rest, hPerm⟩ := hPart
  have hReserved : (σ.reserved.map Prod.snd).sum =
      ((part.map cfg.entry).map Prod.snd).sum + ((rest.map cfg.entry).map Prod.snd).sum := by
    rw [h.reserved, ((hPerm.map cfg.entry).map Prod.snd).sum_nat, map_append,
      map_append, sum_append]
  have hBytes := h.bytes
  omega

theorem le_bytes_of_sent (hFlow : Flow cfg σ) {item : Item ι α} {amount : Nat}
    (hSent : σ.forwarder = .sent item amount) : amount ≤ σ.bytes := by
  have hReleased := h.released
  rw [hSent] at hReleased
  refine h.le_bytes (hFlow.exists_rest (Flow.entered_sublist σ)) ?_
  rw [← append_nil σ.entered]
  refine Eq.trans ?_ (congrArg (fun l => (l.map Prod.snd).sum) hReleased)
  simp [Forwarder.unsettled]

theorem le_bytes_of_failed (hFlow : Flow cfg σ) {item : Item ι α} {amount : Nat}
    (hFailed : σ.forwarder = .failed item amount) : amount ≤ σ.bytes := by
  have hReleased := h.released
  have hSound := h.sound
  rw [hFailed] at hReleased hSound
  have hPart : (σ.entered ++ [item]).Sublist σ.pipeline := by
    rw [State.pipeline, hFailed]
    exact sublist_append_left ..
  refine h.le_bytes (hFlow.exists_rest hPart) ?_
  have hSame : σ.released = σ.entered.map cfg.entry := by
    simpa [Forwarder.unsettled, Forwarder.abandoned] using hReleased
  rw [hSame, hSound]
  simp [Config.entry]

theorem reserve (p : ι) (message : α) : Ledger cfg (reserve cfg σ (σ.nextItem p message)) := by
  rw [Staging.reserve]
  dsimp only
  split
  · rename_i hFits
    refine ⟨?_, h.released, h.sound, ?_, hFits⟩
    · change σ.reserved ++ _ = (σ.accepted ++ _).map cfg.entry
      rw [h.reserved, map_append]
      rfl
    · change σ.bytes + cfg.size message + (σ.released.map Prod.snd).sum =
        ((σ.reserved ++ [(σ.nextItem p message, cfg.size message)]).map Prod.snd).sum
      have hBytes := h.bytes
      simp only [map_append, map_singleton, sum_append, sum_singleton]
      omega
  · exact ⟨h.reserved, h.released, h.sound, h.bytes, h.bounded⟩

theorem send (hRunning : σ.forwarder ≠ .stopped) (p : ι) (item : Item ι α) (amount : Nat) :
    Ledger cfg (send σ p item amount) := by
  rw [Staging.send]
  split
  · rename_i hStopped
    exact absurd hStopped hRunning
  · exact ⟨h.reserved, h.released, h.sound, h.bytes, h.bounded⟩

omit [DecidableEq ι] in
theorem forward {τ : State ι α} {item : Item ι α} {amount : Nat}
    (hHolding : σ.forwarder = .holding item amount) (hStep : forward cfg σ item amount = some τ) :
    Ledger cfg τ := by
  have hReleased := h.released
  have hSound : amount = cfg.size item.message := by
    have hSound := h.sound
    rw [hHolding] at hSound
    exact hSound
  rw [hHolding] at hReleased
  rw [Staging.forward] at hStep
  split at hStep
  · obtain ⟨-, hEq⟩ := Option.ite_none_right_eq_some.mp hStep
    cases hEq
    refine ⟨h.reserved, ?_, hSound, h.bytes, h.bounded⟩
    change σ.released ++ [(item, amount)] = (σ.entered ++ [item] ++ []).map cfg.entry
    rw [append_nil, map_append, map_singleton, Config.entry, ← hSound]
    exact congrArg (· ++ _) (by simpa [Forwarder.unsettled, Forwarder.abandoned] using hReleased)
  · cases hStep
    exact ⟨h.reserved, hReleased, hSound, h.bytes, h.bounded⟩

omit [DecidableEq ι] in
theorem settle {item : Item ι α} {amount : Nat} {next : Forwarder ι α} (hCovered : amount ≤ σ.bytes)
    (hSound : next.Sound cfg) (hReleased : σ.released ++ [(item, amount)] ++ next.unsettled =
      (σ.entered ++ next.abandoned).map cfg.entry) :
    Ledger cfg { σ.giveBack item amount with forwarder := next } := by
  refine ⟨h.reserved, hReleased, hSound, ?_, Nat.le_trans (Nat.sub_le ..) h.bounded⟩
  change σ.bytes - amount + ((σ.released ++ [(item, amount)]).map Prod.snd).sum =
    (σ.reserved.map Prod.snd).sum
  have hBytes := h.bytes
  simp only [map_append, map_singleton, sum_append, sum_singleton]
  omega

theorem step (hFlow : Flow cfg σ) (hBlock : cfg.overflow = .block) {τ : State ι α}
    {label : Label ι α} (hKeeps : label ≠ .stop) (hStep : step cfg σ label = some τ) :
    Ledger cfg τ := by
  have hReleased := h.released
  have hSound := h.sound
  cases acts_of_step hStep with
  | issue hIdle message =>
    rw [issue, hBlock]
    exact h.reserve _ message
  | send hReserved => exact h.send hFlow.running ..
  | release hRefused => exact (hFlow.not_refused hRefused).elim
  | receive hWaiting hStaging =>
    rw [hWaiting] at hReleased
    exact ⟨h.reserved, hReleased, rfl, h.bytes, h.bounded⟩
  | forward hHolding hForward => exact h.forward hHolding hForward
  | settleSent hSent =>
    refine h.settle (h.le_bytes_of_sent hFlow hSent) trivial ?_
    rw [hSent] at hReleased
    exact (append_nil _).trans hReleased
  | @settleFailed item amount hFailed =>
    refine h.settle (h.le_bytes_of_failed hFlow hFailed) trivial ?_
    rw [hFailed] at hReleased hSound
    have hSame : σ.released = σ.entered.map cfg.entry := by
      simpa [Forwarder.unsettled, Forwarder.abandoned] using hReleased
    change σ.released ++ [(item, amount)] ++ [] = (σ.entered ++ [item]).map cfg.entry
    rw [append_nil, map_append, hSame, hSound]
    rfl
  | stop hLeaving => exact absurd rfl hKeeps
  | take | close => exact ⟨h.reserved, h.released, h.sound, h.bytes, h.bounded⟩

end Ledger

/-! ## Whole runs -/

def Invariant (cfg : Config α) (σ : State ι α) : Prop := Flow cfg σ ∧ Ledger cfg σ

section

variable {cfg : Config α} {σ τ : State ι α}

theorem accounted (h : Invariant cfg σ) : Accounted cfg σ := by
  obtain ⟨hFlow, hLedger⟩ := h
  refine ⟨?_, ?_, hLedger.bounded, fun amount hGives => ?_, hFlow.logged.counted,
    fun item => hFlow.settled, ⟨hFlow.logged.sublist, hFlow.prefix_entered⟩, ?_⟩
  · rw [hLedger.reserved, map_map]
    exact (map_id _).symm ▸ hFlow.accepted_nodup
  · have hPart : (σ.entered ++ σ.forwarder.abandoned).Sublist σ.pipeline := by
      refine List.Sublist.trans (List.Sublist.append (.refl _) ?_) (sublist_append_left ..)
      cases σ.forwarder <;> first | exact List.Sublist.refl _ | exact nil_sublist _
    obtain ⟨rest, hPerm⟩ := hFlow.exists_rest hPart
    have hReserved : σ.reserved.Perm
        (σ.released ++ (σ.forwarder.unsettled ++ rest.map cfg.entry)) := by
      rw [hLedger.reserved, ← append_assoc, hLedger.released, ← map_append]
      exact hPerm.map cfg.entry
    refine ⟨_, hReserved, ?_⟩
    have hSum := (hReserved.map Prod.snd).sum_nat
    rw [map_append, sum_append] at hSum
    have hBytes := hLedger.bytes
    omega
  · rcases hGives with ⟨p, item, hRefused⟩ | ⟨item, hSent | hFailed⟩
    · exact (hFlow.not_refused hRefused).elim
    · exact hLedger.le_bytes_of_sent hFlow hSent
    · exact hLedger.le_bytes_of_failed hFlow hFailed
  · exact hFlow.pipeline_nodup.sublist (Flow.entered_sublist σ)

theorem not_accounted_of_stop (h : Invariant cfg σ) (hStep : step cfg σ .stop = some τ) :
    ¬ Accounted cfg τ := by
  obtain ⟨hFlow, -⟩ := h
  cases acts_of_step hStep with
  | @stop item hLeaving =>
    have hUnsent : item ∈ σ.forwarder.unsent := by
      rw [hLeaving]
      exact mem_singleton.mpr rfl
    have hPipeline : item ∈ σ.pipeline :=
      mem_append_left _ (mem_append_right _ hUnsent)
    have hAccepted := hFlow.mem_accepted_iff.mpr (.inl hPipeline)
    have hBefore := hFlow.settled (hFlow.logged.sublist.subset hAccepted)
    have hHeld : σ.Held item := .inr (.inr hUnsent)
    intro hAccounted
    have hGone : ¬ State.Held { σ with forwarder := .stopped, staging := [] } item := by
      rintro (hProducer | hStaged | hSending)
      · exact hFlow.not_own_of_pipeline hPipeline (hFlow.mem_own hProducer)
      · cases hStaged
      · cases hSending
    rcases hAccounted.settled item (hFlow.logged.sublist.subset hAccepted) with
      ⟨hDropped, -⟩ | ⟨-, hStill, -⟩ | ⟨-, -, hEntered⟩
    · exact hFlow.not_dropped_of_accepted hAccepted hDropped
    · exact hGone hStill
    · rcases hBefore with ⟨-, hNot, -⟩ | ⟨-, -, hNot⟩ | ⟨-, hNot, -⟩
      · exact hNot hHeld
      · exact hNot hEntered
      · exact hNot hHeld

end

theorem always_accounted_iff (cfg : Config α) (hBlock : cfg.overflow = .block)
    (run : List (Label ι α)) : Always (step cfg) (Accounted cfg) State.new run ↔
      EachStep (step cfg) (fun _ label => label ≠ .stop) State.new run := by
  refine always_iff_eachStep (I := Invariant cfg) (fun σ => accounted)
    (fun σ label τ h hKeeps hStep => ?_) (fun σ label τ h hStops hStep => ?_)
    ⟨Flow.new cfg, Ledger.new cfg⟩ run
  · have hClose : label = .close → cfg.overflow ≠ .bestEffort := fun _ hBest => by
      rw [hBlock] at hBest
      cases hBest
    exact ⟨h.1.step hKeeps hClose hStep, h.2.step h.1 hBlock hKeeps hStep⟩
  · cases not_not.mp hStops
    exact not_accounted_of_stop h hStep

/-! ## An open queue -/

def Forwarder.sending : Forwarder ι α → Bool
  | .failed _ _ | .leaving _ | .stopped => false
  | _ => true

structure Running (cfg : Config α) (σ : State ι α) : Prop where
  flow : Flow cfg σ
  ledger : cfg.overflow = .block → Ledger cfg σ
  queueOpen : σ.queueOpen = true
  sending : σ.forwarder.sending = true

/-- What a new message does: dropped, in the queue at once, or reserved for. -/
inductive Issues (cfg : Config α) (σ : State ι α) (item : Item ι α) : State ι α → Prop where
  | dropped : Issues cfg σ item (σ.drop item)
  | entered : Issues cfg σ item
      { σ.enter item with issued := σ.issued ++ [item], accepted := σ.accepted ++ [item] }
  | reserved : Issues cfg σ item
      { σ.setProducer item.producer (.reserved item (cfg.size item.message)) with
        bytes := σ.bytes + cfg.size item.message
        issued := σ.issued ++ [item]
        accepted := σ.accepted ++ [item]
        reserved := σ.reserved ++ [(item, cfg.size item.message)] }

namespace Running

variable {cfg : Config α} {σ τ : State ι α} {label : Label ι α}

theorem new (cfg : Config α) : Running cfg (State.new : State ι α) :=
  ⟨Flow.new cfg, fun _ => Ledger.new cfg, rfl, rfl⟩

variable (h : Running cfg σ)

include h

theorem issues (p : ι) (message : α) :
    Issues cfg σ (σ.nextItem p message) (issue cfg σ p message) := by
  rw [issue]
  split
  · rw [trySend, if_pos h.queueOpen]
    split
    · exact .entered
    · exact .dropped
  · rw [reserve]
    dsimp only
    split
    · exact .reserved
    · exact .dropped

theorem not_stop (hStep : Staging.step cfg σ label = some τ) : label ≠ .stop := by
  rintro rfl
  have hSending := h.sending
  cases acts_of_step hStep with
  | stop hLeaving =>
    rw [hLeaving] at hSending
    cases hSending

theorem step (hOpen : label ≠ .close) (hStep : step cfg σ label = some τ) : Running cfg τ := by
  have hFlow := h.flow.step (h.not_stop hStep) (fun hClose => absurd hClose hOpen) hStep
  have hLedger (hBlock : cfg.overflow = .block) :=
    (h.ledger hBlock).step h.flow hBlock (h.not_stop hStep) hStep
  suffices hRest : τ.queueOpen = true ∧ τ.forwarder.sending = true from
    ⟨hFlow, hLedger, hRest.1, hRest.2⟩
  have hSending := h.sending
  cases acts_of_step hStep with
  | @issue p hIdle message =>
    have hIssues := h.issues p message
    generalize issue cfg σ p message = after at hIssues ⊢
    cases hIssues <;> exact ⟨h.queueOpen, h.sending⟩
  | send hReserved =>
    rw [send]
    split <;> exact ⟨h.queueOpen, h.sending⟩
  | release hRefused => exact ⟨h.queueOpen, h.sending⟩
  | receive hWaiting hStaging => exact ⟨h.queueOpen, rfl⟩
  | forward hHolding hForward =>
    rw [forward, if_pos h.queueOpen] at hForward
    obtain ⟨-, hEq⟩ := Option.ite_none_right_eq_some.mp hForward
    cases hEq
    exact ⟨h.queueOpen, rfl⟩
  | settleSent hSent => exact ⟨h.queueOpen, rfl⟩
  | settleFailed hFailed =>
    rw [hFailed] at hSending
    cases hSending
  | stop hLeaving =>
    rw [hLeaving] at hSending
    cases hSending
  | take hSome => exact ⟨h.queueOpen, h.sending⟩
  | close => exact absurd rfl hOpen

theorem entered_of_accepted (hSize : ∀ i ∈ σ.accepted, 0 < cfg.size i.message)
    (hBytes : cfg.overflow = .block → σ.bytes = 0) {item : Item ι α}
    (hAccepted : item ∈ σ.accepted) : item ∈ σ.entered := by
  cases hOverflow : cfg.overflow with
  | bestEffort =>
    obtain ⟨hStaging, hWaiting, hIdle, -⟩ := h.flow.direct hOverflow
    rcases h.flow.mem_accepted_iff.mp hAccepted with hPipeline | hOwn
    · rw [State.pipeline, hStaging, hWaiting] at hPipeline
      simpa [Forwarder.unsent] using hPipeline
    · rw [hIdle] at hOwn
      cases hOwn
  | block =>
    by_contra hNot
    have hLedger := h.ledger hOverflow
    have hEntered := Flow.entered_sublist σ
    have hNodup : (σ.entered ++ [item]).Nodup :=
      nodup_append.mpr ⟨h.flow.pipeline_nodup.sublist hEntered, nodup_singleton item,
        fun i hi j hj hEq => hNot (mem_singleton.mp hj ▸ hEq ▸ hi)⟩
    have hPart : ∀ i ∈ σ.entered ++ [item], i ∈ σ.accepted := fun i hi => by
      rcases mem_append.mp hi with hOld | hNew
      · exact h.flow.mem_accepted_iff.mpr (.inl (hEntered.subset hOld))
      · exact mem_singleton.mp hNew ▸ hAccepted
    have hCounted : (σ.forwarder.unsettled.map Prod.snd).sum + cfg.size item.message ≤ σ.bytes := by
      refine hLedger.le_bytes (exists_perm_append hNodup hPart) ?_
      have hReleased := congrArg (fun l => (l.map Prod.snd).sum) hLedger.released
      have hStays : σ.forwarder.abandoned = [] := by
        have hSending := h.sending
        cases hForwarder : σ.forwarder with
        | leaving item =>
          rw [hForwarder] at hSending
          cases hSending
        | _ => rfl
      simp only [hStays, append_nil, map_append, sum_append] at hReleased
      simp only [map_append, sum_append, ← hReleased, map_singleton, sum_singleton, Config.entry]
      exact (Nat.add_assoc ..).symm
    have hPositive := hSize item hAccepted
    rw [hBytes hOverflow] at hCounted
    omega

theorem enters (hStep : Staging.step cfg σ label = some τ) (hOpen : label ≠ .close)
    (hTake : ∀ n, label ≠ .take n) : (τ.entered = σ.entered ∧ τ.queue = σ.queue) ∨
      ∃ item, τ.entered = σ.entered ++ [item] ∧ τ.queue = σ.queue ++ [item] ∧
        (item ∉ σ.issued ∨ label = .forward ∧ item ∈ σ.forwarder.unsent) := by
  cases acts_of_step hStep with
  | @issue p hIdle message =>
    have hNumber : (σ.nextItem p message).number =
        (ofProducer (σ.nextItem p message).producer σ.issued).length := rfl
    have hNew : σ.nextItem p message ∉ σ.issued := fun hMem =>
      Nat.lt_irrefl _ (hNumber ▸ h.flow.logged.numbered _ hMem)
    have hIssues := h.issues p message
    generalize issue cfg σ p message = after at hIssues ⊢
    cases hIssues with
    | dropped => exact .inl ⟨rfl, rfl⟩
    | entered => exact .inr ⟨_, rfl, rfl, .inl hNew⟩
    | reserved => exact .inl ⟨rfl, rfl⟩
  | send hReserved =>
    rw [send]
    split <;> exact .inl ⟨rfl, rfl⟩
  | release | receive => exact .inl ⟨rfl, rfl⟩
  | @forward item amount _ hHolding hForward =>
    rw [forward, if_pos h.queueOpen] at hForward
    obtain ⟨-, hEq⟩ := Option.ite_none_right_eq_some.mp hForward
    cases hEq
    refine .inr ⟨item, rfl, rfl, .inr ⟨rfl, ?_⟩⟩
    rw [hHolding]
    exact mem_singleton.mpr rfl
  | settleSent | settleFailed | stop => exact .inl ⟨rfl, rfl⟩
  | take hSome => exact absurd rfl (hTake _)
  | close => exact absurd rfl hOpen

theorem accepts (hStep : Staging.step cfg σ label = some τ) :
    τ.accepted = σ.accepted ∨ ∃ p message, label = .issue p message ∧
      τ.accepted = σ.accepted ++ [σ.nextItem p message] := by
  cases acts_of_step hStep with
  | @issue p hIdle message =>
    have hIssues := h.issues p message
    generalize issue cfg σ p message = after at hIssues ⊢
    cases hIssues with
    | dropped => exact .inl rfl
    | entered | reserved => exact .inr ⟨p, message, rfl, rfl⟩
  | send hReserved =>
    rw [send]
    split <;> exact .inl rfl
  | release | receive => exact .inl rfl
  | forward hHolding hForward =>
    rw [forward, if_pos h.queueOpen] at hForward
    obtain ⟨-, hEq⟩ := Option.ite_none_right_eq_some.mp hForward
    cases hEq
    exact .inl rfl
  | _ => exact .inl rfl

end Running

end Staging
