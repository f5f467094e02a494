import Mathlib.Data.Finset.Basic
import Zatat.Lib.Alternation
import Zatat.Ws.State

/-! # What a subscriber has been told

The frames issued to one socket, and what they say about a presence channel. A
subscriber's view is the roster it was sent with every later change applied to
it; for one user, the same frames are a starting value and a history of changes.
-/

namespace Zatat

open FiniteMap List

def Outbound.frame : Outbound → Option Frame
  | .text frame => some frame
  | _ => none

def framesTo (sent : List Sent) (appId socketId : String) : List Frame :=
  sent.filterMap fun e => if e.app = appId ∧ e.socket = socketId then e.item.frame else none

def viewStep (channel : String) (view : Finset String) : Frame → Finset String
  | .subscriptionSucceeded c (some data) => if c = channel then data.ids.toFinset else view
  | .memberAdded c u _ => if c = channel then insert u view else view
  | .memberRemoved c u => if c = channel then view.erase u else view
  | _ => view

def viewOf (channel : String) (frames : List Frame) : Finset String :=
  frames.foldl (viewStep channel) ∅

/-- What a subscriber was told about one user: whether the roster had the user,
and the changes announced since. -/
structure Hearing where
  start : Bool
  changes : List Bool
deriving DecidableEq, Repr

def Hearing.current (h : Hearing) : Bool := Alternation.current h.start h.changes

def Hearing.Alternates (h : Hearing) : Prop := Alternation.Alternates h.start h.changes

def Hearing.hear (h : Hearing) (changes : List Bool) : Hearing :=
  { h with changes := h.changes ++ changes }

def Frame.change (channel userId : String) : Frame → Option Bool
  | .memberAdded c u _ => if c = channel ∧ u = userId then some true else none
  | .memberRemoved c u => if c = channel ∧ u = userId then some false else none
  | _ => none

def Frame.roster (channel : String) : Frame → Option PresenceData
  | .subscriptionSucceeded c data => if c = channel then data else none
  | _ => none

def hearStep (channel userId : String) (h : Hearing) (frame : Frame) : Hearing :=
  match frame.roster channel with
  | some data => ⟨decide (userId ∈ data.ids), []⟩
  | none => h.hear (frame.change channel userId).toList

def heard (channel userId : String) (frames : List Frame) : Hearing :=
  frames.foldl (hearStep channel userId) ⟨false, []⟩

theorem heard_append (channel userId : String) (frames frames' : List Frame) :
    heard channel userId (frames ++ frames') =
      frames'.foldl (hearStep channel userId) (heard channel userId frames) :=
  foldl_append

@[simp] theorem Hearing.hear_nil (h : Hearing) : h.hear [] = h := by
  simp [Hearing.hear]

theorem Hearing.hear_append (h : Hearing) (l l' : List Bool) :
    h.hear (l ++ l') = (h.hear l).hear l' := by
  simp [Hearing.hear, append_assoc]

@[simp] theorem Hearing.current_hear (h : Hearing) (b : Bool) : (h.hear [b]).current = b :=
  Alternation.current_concat ..

theorem foldl_hearStep_of_changes {channel userId : String} {frames : List Frame}
    (hNone : ∀ f ∈ frames, f.roster channel = none) (h : Hearing) :
    frames.foldl (hearStep channel userId) h =
      h.hear (frames.filterMap (Frame.change channel userId)) := by
  induction frames generalizing h with
  | nil => simp
  | cons f frames ih =>
    have hHead := hNone f mem_cons_self
    rw [foldl_cons, ih (fun f' hf' => hNone f' (mem_cons_of_mem _ hf')), hearStep, hHead]
    dsimp only
    rw [← Hearing.hear_append]
    congr 1
    cases hChange : f.change channel userId <;> simp [hChange]

theorem heard_append_change {frames : List Frame} {frame : Frame} {channel u c v : String}
    {b : Bool} (hRoster : frame.roster c = none)
    (hChange : frame.change c v = if channel = c ∧ u = v then some b else none) {A R : Prop}
    {Q : String → Prop} [Decidable A] [Decidable R] [DecidablePred Q] :
    heard c v (frames ++ if (A ∧ R) ∧ Q u then [frame] else []) = (heard c v frames).hear
        (if (A ∧ channel = c ∧ R) ∧ u = v ∧ Q v then [b] else []) := by
  rw [heard_append, foldl_hearStep_of_changes]
  · congr 1
    split_ifs with hFrame hHear hHear
    · rw [filterMap_cons, hChange, if_pos ⟨hHear.1.2.1, hHear.2.1⟩]
      rfl
    · have hNot : ¬ (channel = c ∧ u = v) := by
        rintro ⟨rfl, rfl⟩
        exact hHear ⟨⟨hFrame.1.1, rfl, hFrame.1.2⟩, rfl, hFrame.2⟩
      rw [filterMap_cons, hChange, if_neg hNot]
      rfl
    · obtain ⟨⟨hApp, -, hReach⟩, rfl, hAbsent⟩ := hHear
      exact absurd ⟨⟨hApp, hReach⟩, hAbsent⟩ hFrame
    · rfl
  · intro f hf
    split at hf
    · rw [mem_singleton.mp hf]
      exact hRoster
    · cases hf

theorem mem_viewOf (channel userId : String) (frames : List Frame) :
    userId ∈ viewOf channel frames ↔ (heard channel userId frames).current = true := by
  have hFold (view : Finset String) (h : Hearing) (hAgree : userId ∈ view ↔ h.current = true) :
      userId ∈ frames.foldl (viewStep channel) view ↔
        (frames.foldl (hearStep channel userId) h).current = true := by
    induction frames generalizing view h with
    | nil => exact hAgree
    | cons f frames ih =>
      apply ih
      cases f with
      | subscriptionSucceeded c data =>
        cases data with
        | none => simpa [viewStep, hearStep, Frame.roster, Frame.change] using hAgree
        | some data =>
          by_cases hc : c = channel
          · simp [viewStep, hearStep, Frame.roster, hc, Hearing.current, Alternation.current]
          · simpa [viewStep, hearStep, Frame.roster, Frame.change, hc] using hAgree
      | memberAdded c u info =>
        by_cases hc : c = channel ∧ u = userId
        · simp [viewStep, hearStep, Frame.roster, Frame.change, hc]
        · have hRoster : (Frame.memberAdded c u info).roster channel = none := rfl
          rw [hearStep, hRoster, Frame.change, if_neg hc]
          simp only [viewStep, Option.toList_none, Hearing.hear_nil, ← hAgree]
          split
          · rename_i hChannel
            rw [Finset.mem_insert]
            exact or_iff_right fun hu => hc ⟨hChannel, hu.symm⟩
          · rfl
      | memberRemoved c u =>
        by_cases hc : c = channel ∧ u = userId
        · simp [viewStep, hearStep, Frame.roster, Frame.change, hc]
        · have hRoster : (Frame.memberRemoved c u).roster channel = none := rfl
          rw [hearStep, hRoster, Frame.change, if_neg hc]
          simp only [viewStep, Option.toList_none, Hearing.hear_nil, ← hAgree]
          split
          · rename_i hChannel
            rw [Finset.mem_erase]
            exact and_iff_right fun hu => hc ⟨hChannel, hu.symm⟩
          · rfl
      | _ => simpa [viewStep, hearStep, Frame.roster, Frame.change] using hAgree
  exact hFold ∅ ⟨false, []⟩ (by simp [Hearing.current])

/-! ## The frames of one broadcast -/

theorem framesTo_append (sent sent' : List Sent) (appId socketId : String) :
    framesTo (sent ++ sent') appId socketId =
      framesTo sent appId socketId ++ framesTo sent' appId socketId :=
  filterMap_append

theorem framesTo_text {sockets : List String} (hNodup : sockets.Nodup) (a : String)
    (frame : Frame) (appId socketId : String) :
    framesTo (sockets.map fun s => ⟨a, s, .text frame⟩) appId socketId =
      if a = appId ∧ socketId ∈ sockets then [frame] else [] := by
  induction sockets with
  | nil => simp [framesTo]
  | cons s sockets ih =>
    obtain ⟨hHead, hTail⟩ := nodup_cons.mp hNodup
    have hRest := ih hTail
    rw [framesTo] at hRest
    rw [framesTo, map_cons, filterMap_cons]
    dsimp only
    by_cases hs : a = appId ∧ s = socketId
    · obtain ⟨rfl, rfl⟩ := hs
      rw [if_pos ⟨rfl, rfl⟩, hRest, if_neg (fun h => hHead h.2)]
      simp [Outbound.frame]
    · rw [if_neg hs, hRest]
      by_cases ha : a = appId
      · have hNe : socketId ≠ s := fun hEq => hs ⟨ha, hEq.symm⟩
        simp [ha, hNe]
      · simp [ha]

variable (srv : Server) (a s : String) (ch : Channel) (frame : Frame) (except : Option String)
  (appId socketId c v : String)

theorem Channel.recipients_nodup : (ch.recipients except).Nodup := ch.members.keys_nodup.filter _

theorem Channel.mem_recipients (s : String) :
    s ∈ ch.recipients except ↔ s ∈ ch.members ∧ except ≠ some s := by
  rw [Channel.recipients, mem_filter, AList.mem_keys, decide_eq_true_eq]

theorem framesTo_broadcastProtocol :
    framesTo (srv.broadcastProtocol a ch frame except).sent appId socketId =
      framesTo srv.sent appId socketId ++
        if a = appId ∧ socketId ∈ ch.members ∧ except ≠ some socketId then [frame] else [] := by
  rw [Server.broadcastProtocol, Server.sendAll, framesTo_append,
    framesTo_text (ch.recipients_nodup except)]
  simp only [ch.mem_recipients]

theorem framesTo_reply : framesTo (srv.sendAll a [s] (.text frame)).sent appId socketId =
      framesTo srv.sent appId socketId ++ if a = appId ∧ socketId = s then [frame] else [] := by
  rw [Server.sendAll, framesTo_append, framesTo_text (nodup_singleton s)]
  simp only [mem_singleton]

theorem heard_broadcastProtocol :
    heard c v (framesTo (srv.broadcastProtocol a ch frame except).sent appId socketId) =
      if a = appId ∧ socketId ∈ ch.members ∧ except ≠ some socketId then
        hearStep c v (heard c v (framesTo srv.sent appId socketId)) frame
      else heard c v (framesTo srv.sent appId socketId) := by
  rw [framesTo_broadcastProtocol, heard_append]
  split <;> rfl

theorem heard_reply : heard c v (framesTo (srv.sendAll a [s] (.text frame)).sent appId socketId) =
      if a = appId ∧ socketId = s then
        hearStep c v (heard c v (framesTo srv.sent appId socketId)) frame
      else heard c v (framesTo srv.sent appId socketId) := by
  rw [framesTo_reply, heard_append]
  split <;> rfl

theorem hearStep_of_none {channel userId : String} {frame : Frame}
    (hRoster : frame.roster channel = none) (hChange : frame.change channel userId = none)
    (h : Hearing) : hearStep channel userId h frame = h := by
  rw [hearStep, hRoster, hChange]
  exact h.hear_nil

end Zatat
