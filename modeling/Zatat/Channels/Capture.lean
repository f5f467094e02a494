import Zatat.Channels.RefcountRuns
import Zatat.Lib.Run

/-! # A roster captured while members come and go

The heartbeat calls `presence_snapshot` without the channel's transition lock.
The walk through the member map reads one shard after the other, each at its
own moment, so joins and leaves happen between the reads.
-/

namespace Zatat.Capture

open FiniteMap Transition Channel Option

/-- A capture in progress: the channel, the next shard to read and what was read. -/
structure State where
  channel : Channel
  next : Nat
  read : List (Option PresenceMember)

inductive Label where
  | subscribe (socketId : String) (member : PresenceMember)
  | unsubscribe (socketId : String)
  | readShard

def State.start (ch : Channel) : State := ⟨ch, 0, []⟩

def State.roster (σ : State) : PresenceData := PresenceData.fromMembers σ.read

section

variable (shards : Nat) (shardOf : String → Nat)

def shardMembers (ch : Channel) (shard : Nat) : List (Option PresenceMember) :=
  (ch.members.entries.filter fun e => shardOf e.1 = shard).map fun e => e.2.presence

def step (σ : State) : Label → Option State
  | .subscribe socketId member =>
    some { σ with channel := (σ.channel.subscribe socketId (some member)).2 }
  | .unsubscribe socketId => some { σ with channel := (σ.channel.unsubscribe socketId).2 }
  | .readShard =>
    if σ.next < shards then
      some { σ with next := σ.next + 1, read := σ.read ++ shardMembers shardOf σ.channel σ.next }
    else none

/-- The roster lists who was there throughout and nobody who was never there. -/
structure Truthful (σ τ : State) (run : List Label) : Prop where
  complete : ∀ u, Always (step shards shardOf) (fun ρ => ρ.channel.HasMember u) σ run →
    u ∈ τ.roster.ids
  sound : ∀ u, Always (step shards shardOf) (fun ρ => ¬ ρ.channel.HasMember u) σ run →
    u ∉ τ.roster.ids

def State.Listed (σ : State) (u : String) : Prop :=
  ∃ member, some member ∈ σ.read ∧ member.userId = u

/-- The user has a member socket, other than the given one, in a shard to be read. -/
def State.Ahead (σ : State) (u : String) (without : Option String) : Prop :=
  ∃ s m, σ.channel.members.lookup s = some m ∧ m.user = some u ∧ some s ≠ without ∧
    σ.next ≤ shardOf s

/-- A leave from a shard that is still to be read does not leave its user, who was not read
yet, with sockets in shards that were read only. -/
def PassesNobody (σ : State) : Label → Prop
  | .unsubscribe s =>
    ∀ m u, σ.channel.members.lookup s = some m → m.user = some u → σ.next ≤ shardOf s →
      σ.Listed u ∨ σ.Ahead shardOf u (some s) ∨ ¬ (σ.channel.unsubscribe s).2.HasMember u
  | _ => True

end

/-! ## What one step does -/

section

variable {shards : Nat} {shardOf : String → Nat} {σ τ : State} {label : Label} {u : String}
  {run : List Label}

theorem exact_step (h : σ.channel.Exact) (hKind : σ.channel.kind.isPresence = true)
    (hStep : step shards shardOf σ label = some τ) :
    τ.channel.Exact ∧ τ.channel.kind.isPresence = true := by
  cases label with
  | subscribe s member =>
    cases hStep
    exact ⟨h.subscribe s hKind.symm, (subscribe_kind ..).symm ▸ hKind⟩
  | unsubscribe s =>
    cases hStep
    exact ⟨h.unsubscribe s, (unsubscribe_kind ..).symm ▸ hKind⟩
  | readShard =>
    obtain ⟨-, hEq⟩ := ite_none_right_eq_some.mp hStep
    cases hEq
    exact ⟨h, hKind⟩

theorem mem_shardMembers {ch : Channel} {shard : Nat} {p : Option PresenceMember} :
    p ∈ shardMembers shardOf ch shard ↔
      ∃ s m, ch.members.lookup s = some m ∧ shardOf s = shard ∧ m.presence = p := by
  rw [shardMembers, List.mem_map]
  constructor
  · rintro ⟨e, he, rfl⟩
    obtain ⟨hMem, hShard⟩ := List.mem_filter.mp he
    exact ⟨e.1, e.2, mem_entries_iff.mp hMem, of_decide_eq_true hShard, rfl⟩
  · rintro ⟨s, m, hLookup, hShard, rfl⟩
    exact ⟨⟨s, m⟩, List.mem_filter.mpr ⟨mem_entries_iff.mpr hLookup, decide_eq_true hShard⟩, rfl⟩

theorem readSome_step (h : σ.channel.Exact) (hKind : σ.channel.kind.isPresence = true)
    (hSome : ∀ p ∈ σ.read, p.isSome) (hStep : step shards shardOf σ label = some τ) :
    ∀ p ∈ τ.read, p.isSome := by
  cases label with
  | subscribe | unsubscribe =>
    cases hStep
    exact hSome
  | readShard =>
    obtain ⟨-, hEq⟩ := ite_none_right_eq_some.mp hStep
    cases hEq
    intro p hp
    rcases List.mem_append.mp hp with hOld | hNew
    · exact hSome p hOld
    · obtain ⟨s, m, hLookup, -, rfl⟩ := mem_shardMembers.mp hNew
      exact (h.present s m hLookup).trans hKind

theorem listed_or_ahead_step (h : σ.Listed u ∨ σ.Ahead shardOf u none)
    (hPasses : PassesNobody shardOf σ label) (hStep : step shards shardOf σ label = some τ)
    (hThere : τ.channel.HasMember u) : τ.Listed u ∨ τ.Ahead shardOf u none := by
  cases label with
  | subscribe s member =>
    cases hStep
    rcases h with hListed | ⟨t, m, hLookup, hUser, -, hAhead⟩
    · exact .inl hListed
    · refine .inr ⟨t, m, ?_, hUser, some_ne_none t, hAhead⟩
      by_cases hMem : s ∈ σ.channel.members
      · rw [subscribe_of_mem hMem]
        exact hLookup
      · rw [subscribe_members hMem, AList.lookup_insert_ne]
        · exact hLookup
        · rintro rfl
          exact hMem (mem_iff_lookup.mpr ⟨m, hLookup⟩)
  | unsubscribe s =>
    cases hStep
    have hStays {t : String} {m : Member} (hLookup : σ.channel.members.lookup t = some m)
        (hNe : t ≠ s) : (σ.channel.unsubscribe s).2.members.lookup t = some m := by
      rw [unsubscribe_members, AList.lookup_erase_ne hNe]
      exact hLookup
    rcases h with hListed | ⟨t, m, hLookup, hUser, -, hAhead⟩
    · exact .inl hListed
    · by_cases hEq : t = s
      · subst hEq
        rcases hPasses m u hLookup hUser hAhead with
          hListed | ⟨t', m', hLookup', hUser', hNe, hAhead'⟩ | hGone
        · exact .inl hListed
        · have hOther : t' ≠ t := fun hEq => hNe (congrArg some hEq)
          exact .inr ⟨t', m', hStays hLookup' hOther, hUser', some_ne_none t', hAhead'⟩
        · exact absurd hThere hGone
      · exact .inr ⟨t, m, hStays hLookup hEq, hUser, some_ne_none t, hAhead⟩
  | readShard =>
    obtain ⟨-, hEq⟩ := ite_none_right_eq_some.mp hStep
    cases hEq
    rcases h with ⟨member, hMem, hUser⟩ | ⟨t, m, hLookup, hUser, -, hAhead⟩
    · exact .inl ⟨member, List.mem_append_left _ hMem, hUser⟩
    · rcases Nat.eq_or_lt_of_le hAhead with hNow | hLater
      · obtain ⟨member, hMember, hId⟩ := map_eq_some_iff.mp hUser
        refine .inl ⟨member, List.mem_append_right _ ?_, hId⟩
        exact mem_shardMembers.mpr ⟨t, m, hLookup, hNow.symm, hMember⟩
      · exact .inr ⟨t, m, hLookup, hUser, some_ne_none t, hLater⟩

theorem listed_step (h : ¬ σ.Listed u) (hAbsent : ¬ σ.channel.HasMember u)
    (hStep : step shards shardOf σ label = some τ) : ¬ τ.Listed u := by
  cases label with
  | subscribe | unsubscribe =>
    cases hStep
    exact h
  | readShard =>
    obtain ⟨-, hEq⟩ := ite_none_right_eq_some.mp hStep
    cases hEq
    rintro ⟨member, hMem, hUser⟩
    rcases List.mem_append.mp hMem with hOld | hNew
    · exact h ⟨member, hOld, hUser⟩
    · obtain ⟨s, m, hLookup, -, hMember⟩ := mem_shardMembers.mp hNew
      refine hAbsent ⟨s, m, hLookup, ?_⟩
      rw [Member.user, hMember, map_some, hUser]

/-! ## Whole captures -/

theorem readSome_exec (h : σ.channel.Exact) (hKind : σ.channel.kind.isPresence = true)
    (hSome : ∀ p ∈ σ.read, p.isSome) (hRun : exec (step shards shardOf) σ run = some τ) :
    ∀ p ∈ τ.read, p.isSome := by
  induction run generalizing σ with
  | nil =>
    cases hRun
    exact hSome
  | cons label run ih =>
    obtain ⟨ρ, hStep, hRest⟩ := bind_eq_some_iff.mp hRun
    obtain ⟨hExact, hPresence⟩ := exact_step h hKind hStep
    exact ih hExact hPresence (readSome_step h hKind hSome hStep) hRest

theorem listed_or_ahead_exec (h : σ.Listed u ∨ σ.Ahead shardOf u none)
    (hPasses : EachStep (step shards shardOf) (PassesNobody shardOf) σ run)
    (hThere : Always (step shards shardOf) (fun ρ => ρ.channel.HasMember u) σ run)
    (hRun : exec (step shards shardOf) σ run = some τ) : τ.Listed u ∨ τ.Ahead shardOf u none := by
  induction run generalizing σ with
  | nil =>
    cases hRun
    exact h
  | cons label run ih =>
    obtain ⟨ρ, hStep, hRest⟩ := bind_eq_some_iff.mp hRun
    obtain ⟨hPass, hLater⟩ := hPasses ρ hStep
    have hAlways := hThere.2 ρ hStep
    exact ih (listed_or_ahead_step h hPass hStep hAlways.head) hLater hAlways hRest

theorem listed_exec (h : ¬ σ.Listed u)
    (hAbsent : Always (step shards shardOf) (fun ρ => ¬ ρ.channel.HasMember u) σ run)
    (hRun : exec (step shards shardOf) σ run = some τ) : ¬ τ.Listed u := by
  induction run generalizing σ with
  | nil =>
    cases hRun
    exact h
  | cons label run ih =>
    obtain ⟨ρ, hStep, hRest⟩ := bind_eq_some_iff.mp hRun
    exact ih (listed_step h hAbsent.1 hStep) (hAbsent.2 ρ hStep) hRest

end

/-- A capture in which no leave passes a user lists who was there throughout, and no
capture lists anybody who was never there. -/
theorem capture_truthful (shards : Nat) (shardOf : String → Nat)
    (hShards : ∀ s, shardOf s < shards) (ch : Channel) (hExact : ch.Exact)
    (hKind : ch.kind.isPresence = true) (run : List Label) (τ : State)
    (hRun : exec (step shards shardOf) (State.start ch) run = some τ) (hDone : τ.next = shards)
    (hPasses : EachStep (step shards shardOf) (PassesNobody shardOf) (State.start ch) run) :
    Truthful shards shardOf (State.start ch) τ run := by
  have hSome := readSome_exec hExact hKind (fun p hp => by cases hp) hRun
  have hMem (u : String) : u ∈ τ.roster.ids ↔ τ.Listed u := PresenceData.mem_fromMembers_ids hSome u
  refine ⟨fun u hThere => ?_, fun u hAbsent => ?_⟩
  · obtain ⟨s, m, hLookup, hUser⟩ := hThere.head
    have hAhead : (State.start ch).Ahead shardOf u none :=
      ⟨s, m, hLookup, hUser, Option.some_ne_none s, Nat.zero_le _⟩
    rw [hMem]
    refine (listed_or_ahead_exec (.inr hAhead) hPasses hThere hRun).resolve_right ?_
    rintro ⟨t, -, -, -, -, hLater⟩
    rw [hDone] at hLater
    exact Nat.lt_irrefl _ ((hShards t).trans_le hLater)
  · rw [hMem]
    refine listed_exec ?_ hAbsent hRun
    rintro ⟨member, hMember, -⟩
    cases hMember

def twoShards (first : String) (socketId : String) : Nat := if socketId = first then 0 else 1

def joinedBy (sockets : List String) (userId : String) : Channel :=
  (Channel.withCacheTtl "presence-room" none).performAll
    (sockets.map fun s => .subscribe s (some ⟨userId, none⟩))

theorem exact_joinedBy (sockets : List String) (u : String) : (joinedBy sockets u).Exact := by
  suffices h : ∀ ch : Channel, ch.Exact → ch.kind.isPresence = true →
      (ch.performAll (sockets.map fun s => .subscribe s (some ⟨u, none⟩))).Exact from
    h _ (withCacheTtl_exact ..) (by decide)
  induction sockets with
  | nil => exact fun ch h _ => h
  | cons s sockets ih =>
    intro ch h hKind
    exact ih _ (h.subscribe s hKind.symm) ((subscribe_kind ..).symm ▸ hKind)

theorem capture_truthful_leaving :
    ∃ τ, exec (step 2 (twoShards "1.1")) (State.start (joinedBy ["1.1", "2.2"] "u"))
        [.readShard, .unsubscribe "2.2", .readShard] = some τ ∧
      Truthful 2 (twoShards "1.1") (State.start (joinedBy ["1.1", "2.2"] "u")) τ
        [.readShard, .unsubscribe "2.2", .readShard] := by
  refine ⟨_, rfl, capture_truthful 2 (twoShards "1.1") ?_ _ (exact_joinedBy _ _) rfl _ _ rfl rfl ?_⟩
  · intro s
    rw [twoShards]
    split <;> decide
  · rintro ρ ⟨⟩
    refine ⟨trivial, ?_⟩
    rintro ρ ⟨⟩
    refine ⟨fun m u hLookup hUser _ => .inl ?_, ?_⟩
    · cases hLookup
      cases hUser
      exact ⟨⟨"u", none⟩, List.mem_singleton.mpr rfl, rfl⟩
    · rintro ρ ⟨⟩
      exact ⟨trivial, trivial⟩

/-- The user moves from a socket in the second shard to one in the first, after the first
was read: present at every moment, and missing from the roster. -/
theorem replaced_socket_omits_user :
    ∃ τ, exec (step 2 (twoShards "1.1")) (State.start (joinedBy ["2.2"] "u"))
        [.readShard, .subscribe "1.1" ⟨"u", none⟩, .unsubscribe "2.2", .readShard] = some τ ∧
      τ.next = 2 ∧ τ.roster.ids = [] ∧
      ¬ Truthful 2 (twoShards "1.1") (State.start (joinedBy ["2.2"] "u")) τ
        [.readShard, .subscribe "1.1" ⟨"u", none⟩, .unsubscribe "2.2", .readShard] := by
  refine ⟨_, rfl, rfl, by decide +kernel, fun h => ?_⟩
  exact absurd (h.complete "u" (by decide +kernel)) (by decide +kernel)

end Zatat.Capture
