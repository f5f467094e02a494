import Zatat.Http.Listing

/-! # When the answers of the fleet are complete

`ask_fleet` counts the nodes that have answered against the number of nodes it had heard of
when it asked. The count says nothing of which nodes they are, and an answer that comes twice
is added twice.
-/

namespace Zatat

open FiniteMap Finset List

namespace EventDispatcher

/-- The nodes that `live_peer_count` counts. -/
def livePeers (d : EventDispatcher) (now : Instant) : Finset String :=
  ((d.peersSeen.entries.filter fun e => durationSince now e.2 ≤ snapshotTtl).map
    fun e => e.1).toFinset

theorem card_livePeers (d : EventDispatcher) (now : Instant) :
    (d.livePeers now).card = d.livePeerCount now := by
  rw [livePeers, toFinset_card_of_nodup, length_map, livePeerCount]
  exact (List.Sublist.map _ filter_sublist).nodup d.peersSeen.nodupKeys

end EventDispatcher

namespace Node

/-- The nodes whose answers the loop takes, and whether it stops before the deadline. -/
def takenOf (expected : Nat) : Finset String → List String → List String × Bool
  | _, [] => ([], false)
  | responders, id :: rest =>
    let responders := insert id responders
    if 0 < expected ∧ expected ≤ responders.card then ([id], true)
    else
      let later := takenOf expected responders rest
      (id :: later.1, later.2)

def answersOf (answerOf : String → List ChannelMetric × Nat) (order : List String) :
    List MetricsAnswer :=
  order.map fun id => (id, answerOf id)

/-- Whatever the nodes answer and in whichever order: when the loop stops early, each live peer
has been heard; and each node that answered is in the result once. -/
def GathersAll (node : Node) (now : Instant) (arrivals : List String) : Prop :=
  ∀ answerOf order, order.Perm arrivals →
    let taken := takenOf (node.dispatcher.livePeerCount now) ∅ order
    (taken.2 = true → node.dispatcher.livePeers now ⊆ taken.1.toFinset) ∧
    ∃ channels connections,
      node.fleetAnswer now (answersOf answerOf order) = some (channels, connections) ∧
      channels.Perm (arrivals.dedup.flatMap fun id => (answerOf id).1) ∧
      connections = (arrivals.dedup.map fun id => (answerOf id).2).sum

/-- No node answers twice, and none that was not known does, unless too few answer for the loop
to stop early. The one live peer may answer again: the loop has stopped. -/
def CountSuffices (node : Node) (now : Instant) (arrivals : List String) : Prop :=
  let live := node.dispatcher.livePeers now
  arrivals.Nodup ∧ (live = ∅ ∨ arrivals.toFinset.card < live.card) ∨
    (∀ id ∈ arrivals, id ∈ live) ∧ (arrivals.Nodup ∨ live.card = 1)

theorem gatherAnswers_eq (answerOf : String → List ChannelMetric × Nat) (expected : Nat)
    (responders : Finset String) (out : List ChannelMetric × Nat) (order : List String) :
    gatherAnswers expected responders out (answersOf answerOf order) =
      (out.1 ++ (takenOf expected responders order).1.flatMap fun id => (answerOf id).1,
        out.2 + ((takenOf expected responders order).1.map fun id => (answerOf id).2).sum) := by
  induction order generalizing responders out with
  | nil => simp [answersOf, gatherAnswers, takenOf]
  | cons id order ih =>
    rw [answersOf, List.map_cons, gatherAnswers, takenOf]
    dsimp only
    split
    · simp
    · rw [← answersOf, ih]
      simp [Nat.add_assoc]

/-- A loop that stops early has heard of as many nodes as it expected and not of more; one that
does not has taken every answer. -/
structure Taken (expected : Nat) (responders : Finset String) (order taken : List String)
    (early : Bool) : Prop where
  taken_prefix : taken <+: order
  enough : early = true → 0 < expected ∧ expected ≤ (responders ∪ taken.toFinset).card
  all : early = false → taken = order
  few : early = false → responders.card < expected →
    (responders ∪ order.toFinset).card < expected
  atMost : responders.card < expected → (responders ∪ taken.toFinset).card ≤ expected

theorem union_toFinset_cons (responders : Finset String) (id : String) (ids : List String) :
    responders ∪ (id :: ids).toFinset = insert id responders ∪ ids.toFinset := by
  rw [toFinset_cons, union_insert, insert_union]

theorem taken_spec (expected : Nat) (responders : Finset String) (order : List String) :
    Taken expected responders order (takenOf expected responders order).1
      (takenOf expected responders order).2 := by
  induction order generalizing responders with
  | nil =>
    refine ⟨prefix_rfl, nofun, fun _ => rfl, fun _ hFew => ?_, fun hFew => ?_⟩
    · simpa using hFew
    · simpa [takenOf] using hFew.le
  | cons id order ih =>
    have hInsert := card_insert_le id responders
    rw [takenOf]
    dsimp only
    split
    · rename_i hStop
      refine ⟨⟨order, rfl⟩, fun _ => ?_, nofun, nofun, fun hFew => ?_⟩
      · rw [union_toFinset_cons]
        simpa using hStop
      · rw [union_toFinset_cons]
        simp only [toFinset_nil, union_empty]
        omega
    · rename_i hGo
      have hLater := ih (insert id responders)
      refine ⟨cons_prefix_cons.mpr ⟨rfl, hLater.taken_prefix⟩, fun hEarly => ?_,
        fun hLast => congrArg _ (hLater.all hLast), fun hLast hFew => ?_, fun hFew => ?_⟩
      · rw [union_toFinset_cons]
        exact hLater.enough hEarly
      · rw [union_toFinset_cons]
        exact hLater.few hLast (by omega)
      · rw [union_toFinset_cons]
        exact hLater.atMost (by omega)

section

variable {node : Node} {now : Instant} {arrivals order : List String}

theorem fleetAnswer_eq (hScaling : node.dispatcher.scalingEnabled = true)
    (answerOf : String → List ChannelMetric × Nat) (order : List String) :
    node.fleetAnswer now (answersOf answerOf order) =
      let taken := (takenOf (node.dispatcher.livePeerCount now) ∅ order).1
      some (taken.flatMap fun id => (answerOf id).1,
        (taken.map fun id => (answerOf id).2).sum) := by
  rw [fleetAnswer, if_pos hScaling, gatherAnswers_eq, nil_append, Nat.zero_add]

theorem GathersAll.of_taken (hScaling : node.dispatcher.scalingEnabled = true)
    (h : ∀ order, order.Perm arrivals →
      (takenOf (node.dispatcher.livePeerCount now) ∅ order).1.Perm arrivals.dedup ∧
      ((takenOf (node.dispatcher.livePeerCount now) ∅ order).2 = true →
        node.dispatcher.livePeers now ⊆
          (takenOf (node.dispatcher.livePeerCount now) ∅ order).1.toFinset)) :
    node.GathersAll now arrivals := by
  intro answerOf order hOrder
  obtain ⟨hPerm, hEarly⟩ := h order hOrder
  exact ⟨hEarly, _, _, fleetAnswer_eq hScaling answerOf order, hPerm.flatMap_right _,
    (hPerm.map _).sum_nat⟩

theorem sum_indicator (id : String) (ids : List String) :
    (ids.map fun other => if other = id then 1 else 0).sum = ids.count id := by
  induction ids with
  | nil => rfl
  | cons other ids ih =>
    rw [List.map_cons, List.sum_cons, ih, count_cons, Nat.add_comm]
    simp

theorem GathersAll.count_eq (hScaling : node.dispatcher.scalingEnabled = true)
    (h : node.GathersAll now arrivals) (hOrder : order.Perm arrivals) (id : String) :
    (takenOf (node.dispatcher.livePeerCount now) ∅ order).1.count id = arrivals.dedup.count id := by
  obtain ⟨_, channels, connections, hAnswer, _, hSum⟩ :=
    h (fun other => ([], if other = id then 1 else 0)) order hOrder
  rw [fleetAnswer_eq hScaling] at hAnswer
  cases hAnswer
  rw [← sum_indicator id arrivals.dedup, ← hSum]
  exact (sum_indicator id _).symm

theorem GathersAll.known (h : node.GathersAll now arrivals)
    (hEnough : node.dispatcher.livePeerCount now ≤ arrivals.toFinset.card)
    (hSome : 0 < node.dispatcher.livePeerCount now) {id : String} (hId : id ∈ arrivals) :
    id ∈ node.dispatcher.livePeers now := by
  by_contra hUnknown
  have hOrder := (perm_cons_erase hId).symm
  have hSpec := taken_spec (node.dispatcher.livePeerCount now) ∅ (id :: arrivals.erase id)
  have hAll := (h (fun _ => ([], 0)) (id :: arrivals.erase id) hOrder).1
  have hFirst : id ∈
      (takenOf (node.dispatcher.livePeerCount now) ∅ (id :: arrivals.erase id)).1 := by
    rw [takenOf]
    split <;> exact mem_cons_self
  have hEarly : (takenOf (node.dispatcher.livePeerCount now) ∅ (id :: arrivals.erase id)).2 =
      true := by
    by_contra hLast
    have hFew := hSpec.few (Bool.eq_false_iff.mpr hLast) hSome
    rw [empty_union, toFinset_eq_of_perm _ _ hOrder] at hFew
    omega
  -- it and the live peers are more than were waited for
  have hMore := card_le_card (insert_subset (mem_toFinset.mpr hFirst) (hAll hEarly))
  have hMost := hSpec.atMost hSome
  rw [card_insert_of_notMem hUnknown, EventDispatcher.card_livePeers] at hMore
  rw [empty_union] at hMost
  omega

/-- An answer that comes twice is added twice, unless the first one is waited for alone. -/
theorem GathersAll.nodup (hScaling : node.dispatcher.scalingEnabled = true)
    (h : node.GathersAll now arrivals) (hMany : node.dispatcher.livePeerCount now ≠ 1) :
    arrivals.Nodup := by
  rw [nodup_iff_count_le_one]
  by_contra hNot
  obtain ⟨id, hTwice⟩ := not_forall.mp hNot
  have hFirst : id ∈ arrivals := count_pos_iff.mp (by omega)
  have hAgain : id ∈ arrivals.erase id := by
    rw [← count_pos_iff, count_erase_self]
    omega
  have hOrder : (id :: id :: (arrivals.erase id).erase id).Perm arrivals :=
    ((perm_cons_erase hAgain).symm.cons id).trans (perm_cons_erase hFirst).symm
  have hOnce := h.count_eq hScaling hOrder id
  have hGo (responders : Finset String) (hCard : responders.card = 1) :
      ¬ (0 < node.dispatcher.livePeerCount now ∧
        node.dispatcher.livePeerCount now ≤ responders.card) := by
    omega
  rw [takenOf, takenOf] at hOnce
  dsimp only at hOnce
  rw [if_neg (hGo _ rfl), if_neg (hGo _ (by simp)), count_cons_self, count_cons_self] at hOnce
  have hDedup := nodup_iff_count_le_one.mp arrivals.nodup_dedup id
  omega

theorem taken_all {expected : Nat} (hOnce : order.Nodup)
    (hFew : 0 < expected → order.toFinset.card ≤ expected) :
    (takenOf expected ∅ order).1 = order := by
  have hSpec := taken_spec expected ∅ order
  cases hEarly : (takenOf expected ∅ order).2 with
  | false => exact hSpec.all hEarly
  | true =>
    obtain ⟨hSome, hEnough⟩ := hSpec.enough hEarly
    have hTaken := toFinset_card_le (takenOf expected ∅ order).1
    have hMost := hFew hSome
    rw [empty_union] at hEnough
    rw [toFinset_card_of_nodup hOnce] at hMost
    exact hSpec.taken_prefix.eq_of_length_le (by omega)

theorem GathersAll.of_nodup (hScaling : node.dispatcher.scalingEnabled = true)
    (hOnce : arrivals.Nodup) (hFew : 0 < node.dispatcher.livePeerCount now →
      arrivals.toFinset.card < node.dispatcher.livePeerCount now ∨
        arrivals.toFinset ⊆ node.dispatcher.livePeers now) : node.GathersAll now arrivals := by
  have hCard := node.dispatcher.card_livePeers now
  refine .of_taken hScaling fun order hOrder => ?_
  have hSame := toFinset_eq_of_perm _ _ hOrder
  have hSpec := taken_spec (node.dispatcher.livePeerCount now) ∅ order
  have hAll : (takenOf (node.dispatcher.livePeerCount now) ∅ order).1 = order := by
    refine taken_all (hOrder.nodup_iff.mpr hOnce) fun hSome => ?_
    rcases hFew hSome with hLess | hKnown
    · exact hSame ▸ hLess.le
    · exact hSame ▸ hCard ▸ card_le_card hKnown
  rw [hAll, hOnce.dedup, hSame]
  refine ⟨hOrder, fun hEarly => ?_⟩
  obtain ⟨hSome, hEnough⟩ := hSpec.enough hEarly
  rw [hAll, empty_union, hSame] at hEnough
  rcases hFew hSome with hLess | hKnown
  · exact absurd hEnough (Nat.not_le_of_gt hLess)
  · exact (eq_of_subset_of_card_le hKnown (hCard.symm ▸ hEnough)).ge

theorem GathersAll.of_one (hScaling : node.dispatcher.scalingEnabled = true)
    (hOne : (node.dispatcher.livePeers now).card = 1)
    (hKnown : ∀ id ∈ arrivals, id ∈ node.dispatcher.livePeers now) :
    node.GathersAll now arrivals := by
  refine .of_taken hScaling fun order hOrder => ?_
  rw [← EventDispatcher.card_livePeers, hOne]
  cases order with
  | nil =>
    rw [← hOrder.nil_eq]
    exact ⟨.nil, nofun⟩
  | cons id order =>
    have hId := hOrder.mem_iff.mp mem_cons_self
    have hOnly (other : String) (hOther : other ∈ node.dispatcher.livePeers now) : other = id :=
      card_le_one.mp hOne.le other hOther id (hKnown id hId)
    rw [takenOf]
    dsimp only
    rw [if_pos ⟨Nat.one_pos, Nat.le_refl 1⟩]
    refine ⟨?_, fun _ other hOther => by simpa using hOnly other hOther⟩
    refine (perm_ext_iff_of_nodup (nodup_singleton id) arrivals.nodup_dedup).mpr ?_
    intro other
    rw [List.mem_singleton, mem_dedup]
    exact ⟨fun hSame => hSame ▸ hId, fun hOther => hOnly other (hKnown other hOther)⟩

theorem fleet_complete_iff (node : Node) (now : Instant) (arrivals : List String)
    (hScaling : node.dispatcher.scalingEnabled = true) :
    node.GathersAll now arrivals ↔ node.CountSuffices now arrivals := by
  have hCard := node.dispatcher.card_livePeers now
  constructor
  · intro h
    by_cases hOne : node.dispatcher.livePeerCount now = 1
    · refine .inr ⟨fun id hId => h.known ?_ (by omega) hId, .inr (hCard.trans hOne)⟩
      rw [hOne]
      exact Finset.card_pos.mpr ⟨id, List.mem_toFinset.mpr hId⟩
    · have hOnce := h.nodup hScaling hOne
      rcases Nat.eq_zero_or_pos (node.dispatcher.livePeerCount now) with hNone | hSome
      · exact .inl ⟨hOnce, .inl (Finset.card_eq_zero.mp (hCard.trans hNone))⟩
      rcases Nat.lt_or_ge arrivals.toFinset.card (node.dispatcher.livePeerCount now) with
        hLess | hEnough
      · exact .inl ⟨hOnce, .inr (hCard.symm ▸ hLess)⟩
      · exact .inr ⟨fun id hId => h.known hEnough hSome hId, .inl hOnce⟩
  · rintro (⟨hOnce, hFew⟩ | ⟨hKnown, hOnce | hOne⟩)
    · refine .of_nodup hScaling hOnce fun hSome => .inl ?_
      rcases hFew with hNone | hLess
      · rw [← hCard, hNone] at hSome
        exact absurd hSome (Nat.lt_irrefl 0)
      · exact hCard ▸ hLess
    · refine .of_nodup hScaling hOnce fun _ => .inr fun id hId => ?_
      exact hKnown id (List.mem_toFinset.mp hId)
    · exact .of_one hScaling hOne hKnown

end

def askingNode (peers : List String) : Node :=
  let node := Node.new "asking" true fun _ => none
  { node with
    dispatcher := { node.dispatcher with
      peersSeen := peers.foldl (fun seen id => seen.insert id 0) ∅ } }

/-- Three known nodes answer once each; a second answer of one would be added twice. -/
theorem known_answer_complete :
    (askingNode ["a", "b", "c"]).GathersAll 0 ["c", "a", "b"] ∧
      ¬ (askingNode ["a", "b", "c"]).GathersAll 0 ["a", "a", "b", "c"] := by
  have hComplete (arrivals : List String) :=
    fleet_complete_iff (askingNode ["a", "b", "c"]) 0 arrivals rfl
  rw [hComplete, hComplete]
  exact ⟨.inr ⟨by decide, .inl (by decide)⟩, by unfold CountSuffices; decide⟩

/-- A node that has just come up answers first, and the loop stops without the one it waits
for. -/
theorem unknown_answer_stops : ¬ (askingNode ["a"]).GathersAll 0 ["b"] := by
  intro h
  have hAll := (h (fun _ => ([], 0)) ["b"] (.refl _)).1 (by decide)
  exact absurd hAll (by decide)

end Node

end Zatat
