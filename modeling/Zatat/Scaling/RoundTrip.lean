import Zatat.Scaling.Wire

/-! # What an envelope keeps on the wire

Every field of every payload is read back as it was written, but for one case: a
user info that is there and is `null` looks like one that is not there.
-/

namespace Zatat

open Wire Wire.Field Wire.Record

/-! ## Values -/

namespace Value

variable {α : Type} {f : Format Value α} {n : Nat} {a : Option α} {name : String}

@[simp]
theorem keeps_text (s : String) : text.Keeps s := rfl

@[simp]
theorem keeps_flag (b : Bool) : flag.Keeps b := rfl

@[simp]
theorem keeps_any (v : Value) : any.Keeps v := rfl

@[simp]
theorem keeps_unsigned {bits : Nat} : (unsigned bits).Keeps n ↔ n < 2 ^ bits := by
  have hText : (toString n).toList = Nat.toDigits 10 n := String.toList_ofList
  have hRead : asUnsigned bits (.number (toString n)) =
      (some n).filter fun n => n < 2 ^ bits := by
    rw [asUnsigned, if_pos (isDigits_toString n), hText, Nat.ofDigitChars_ten_toDigits]
  change asUnsigned bits (.number (toString n)) = some n ↔ _
  rw [hRead, Option.filter_eq_some_iff]
  exact ⟨fun h => of_decide_eq_true h.2, fun h => ⟨rfl, decide_eq_true h⟩⟩

@[simp]
theorem keeps_size : size.Keeps n ↔ n < 2 ^ 64 := keeps_unsigned

theorem keeps_option : (option f).Keeps a ↔ ∀ x ∈ a, f.write x ≠ .null ∧ f.Keeps x := by
  cases a with
  | none => exact ⟨fun _ _ => by rintro ⟨⟩, fun _ => rfl⟩
  | some a =>
    simp only [Option.mem_def, Option.some.injEq, forall_eq']
    change readOption f (f.write a) = some (some a) ↔
      f.write a ≠ .null ∧ f.read (f.write a) = some a
    generalize f.write a = value
    cases value with
    | null => exact ⟨by rintro ⟨⟩, fun h => absurd rfl h.1⟩
    | _ =>
      rw [readOption.eq_2 _ _ (by rintro ⟨⟩), Option.map_eq_some_iff]
      simp

@[simp]
theorem keeps_list {items : List α} : (list f).Keeps items ↔ ∀ a ∈ items, f.Keeps a := by
  change (items.map f.write).mapM f.read = some items ↔ _
  induction items with
  | nil => simp
  | cons a items ih =>
    rw [List.map_cons, List.mapM_cons, List.forall_mem_cons, ← ih]
    simp [Option.bind_eq_some_iff, Format.Keeps]

@[simp]
theorem keeps_struct {r : Record Value α} {a : α} : (struct r).Keeps a ↔ r.Keeps a := Iff.rfl

@[simp]
theorem name_optional : (optional name f).name = name := rfl

@[simp]
theorem name_flagged : (flagged name).name = name := rfl

theorem keeps_optional : (optional name f).Keeps a ↔ ∀ x ∈ a, f.write x ≠ .null ∧ f.Keeps x := by
  rw [optional, keeps_skipIf, keeps_option]
  cases a with
  | none | some => simp

@[simp]
theorem keeps_flagged {b : Bool} : (flagged name).Keeps b := by
  rw [flagged, keeps_skipIf]
  simp

@[simp]
theorem keeps_option_text (s : Option String) : (option text).Keeps s :=
  keeps_option.mpr fun _ _ => ⟨by rintro ⟨⟩, rfl⟩

@[simp]
theorem keeps_optional_text (s : Option String) : (optional name text).Keeps s :=
  keeps_optional.mpr fun _ _ => ⟨by rintro ⟨⟩, rfl⟩

@[simp]
theorem keeps_optional_size {n : Option Nat} :
    (optional name size).Keeps n ↔ ∀ k ∈ n, k < 2 ^ 64 := by
  rw [keeps_optional]
  exact ⟨fun h k hk => keeps_size.mp (h k hk).2,
    fun h k hk => ⟨by rintro ⟨⟩, keeps_size.mpr (h k hk)⟩⟩

/-- The one value that is there and is not read back. -/
@[simp]
theorem keeps_optional_any {info : Option Value} :
    (optional name any).Keeps info ↔ info ≠ some .null := by
  rw [keeps_optional]
  exact ⟨fun h hNull => (h _ hNull).1 rfl, fun h v hv => ⟨fun hNull => h (hNull ▸ hv), rfl⟩⟩

end Value

open Value

/-! ## Parts of a payload -/

@[simp]
theorem AppRef.keeps_record (a : AppRef) : AppRef.record.Keeps a := by
  simp [AppRef.record, keeps_field_and]

@[simp]
theorem ChannelCount.keeps_record {c : ChannelCount} :
    ChannelCount.record.Keeps c ↔ c.count < 2 ^ 64 := by
  simp [ChannelCount.record, keeps_field_and]

@[simp]
theorem MetricsQuery.keeps_record (q : MetricsQuery) : MetricsQuery.record.Keeps q := by
  simp [MetricsQuery.record, keeps_field_and]

def ChannelMetric.sizes (m : ChannelMetric) : List Nat :=
  m.subscriptionCount :: m.userCount.toList

@[simp]
theorem ChannelMetric.keeps_record {m : ChannelMetric} :
    ChannelMetric.record.Keeps m ↔ ∀ n ∈ m.sizes, n < 2 ^ 64 := by
  simp [ChannelMetric.record, ChannelMetric.sizes, keeps_field_and]

@[simp]
theorem PresenceSnapshotMember.keeps_record {m : PresenceSnapshotMember} :
    PresenceSnapshotMember.record.Keeps m ↔ m.userInfo ≠ some .null := by
  simp [PresenceSnapshotMember.record, keeps_field_and]

/-! ## Payloads -/

namespace ScalingPayload

def sizes : ScalingPayload → List Nat
  | .MetricsResponse _ _ channels connections =>
    connections :: channels.flatMap ChannelMetric.sizes
  | .SubscriptionCount _ _ count _ => [count]
  | .ChannelCountSnapshot _ counts => counts.map ChannelCount.count
  | _ => []

def infos : ScalingPayload → List (Option Value)
  | .PresenceSnapshot _ _ members => members.map PresenceSnapshotMember.userInfo
  | .MemberAdded _ _ _ userInfo => [userInfo]
  | _ => []

theorem keeps_union {payload : ScalingPayload} : union.record.Keeps payload ↔
      (∀ n ∈ payload.sizes, n < 2 ^ 64) ∧ ∀ info ∈ payload.infos, info ≠ some .null := by
  rw [Union.keeps_record]
  cases payload with
  | Message => simp [union, split, message, keeps_field_and, sizes, infos]
  | Terminate => simp [union, split, terminate, sizes, infos]
  | TerminateUser => simp [union, split, terminateUser, keeps_field_and, sizes, infos]
  | ClientEvent => simp [union, split, clientEvent, keeps_field_and, sizes, infos]
  | PresenceSnapshot => simp [union, split, presenceSnapshot, keeps_field_and, sizes, infos]
  | UserEvent => simp [union, split, userEvent, keeps_field_and, sizes, infos]
  | MetricsRequest => simp [union, split, metricsRequest, keeps_field_and, sizes, infos]
  | MetricsResponse requestId nodeId channels connections =>
    have hChannels : (∀ n ∈ channels.flatMap ChannelMetric.sizes, n < 2 ^ 64) ↔
        ∀ m ∈ channels, ∀ n ∈ m.sizes, n < 2 ^ 64 := by
      simp only [List.mem_flatMap]
      exact ⟨fun h m hm n hn => h n ⟨m, hm, hn⟩, fun h n ⟨m, hm, hn⟩ => h m hm n hn⟩
    rw [sizes, List.forall_mem_cons, hChannels]
    simp [union, split, metricsResponse, keeps_field_and, infos, and_comm]
  | MemberAdded => simp [union, split, memberAdded, keeps_field_and, sizes, infos]
  | MemberRemoved => simp [union, split, memberRemoved, keeps_field_and, sizes, infos]
  | SubscriptionCount => simp [union, split, subscriptionCount, keeps_field_and, sizes, infos]
  | UserOnline => simp [union, split, userOnline, keeps_field_and, sizes, infos]
  | UserOffline => simp [union, split, userOffline, keeps_field_and, sizes, infos]
  | ChannelCountSnapshot =>
    simp [union, split, channelCountSnapshot, keeps_field_and, sizes, infos]
  | UserSessionSnapshot => simp [union, split, userSessionSnapshot, keeps_field_and, sizes, infos]

end ScalingPayload

/-! ## Envelopes -/

structure ScalingEnvelope.InRange (env : ScalingEnvelope) : Prop where
  version : env.version < 2 ^ 8
  seq : env.seq < 2 ^ 64
  sizes : ∀ n ∈ env.payload.sizes, n < 2 ^ 64

theorem keeps_seq {n : Nat} : (skipIf "seq" (unsigned 64) isZero 0).Keeps n ↔ n < 2 ^ 64 := by
  rw [keeps_skipIf, keeps_unsigned, isZero]
  cases n with
  | zero | succ => simp

theorem ScalingEnvelope.keeps_record {env : ScalingEnvelope} : ScalingEnvelope.record.Keeps env ↔
      env.InRange ∧ ∀ info ∈ env.payload.infos, info ≠ some .null := by
  have hApp : "app" ∉ ScalingPayload.union.record.names := by decide
  have hSeq : "seq" ∉ "app" :: ScalingPayload.union.record.names := by decide
  have hVersion : "v" ∉ "seq" :: "app" :: ScalingPayload.union.record.names := by decide
  rw [ScalingEnvelope.record, keeps_imap, keeps_field_and hVersion, keeps_field_and hSeq,
    keeps_field_and hApp, ScalingPayload.keeps_union, keeps_required, keeps_unsigned, keeps_seq,
    keeps_required]
  exact ⟨fun ⟨hv, hs, _, hSizes, hInfos⟩ => ⟨⟨hv, hs, hSizes⟩, hInfos⟩,
    fun ⟨h, hInfos⟩ => ⟨h.version, h.seq, AppRef.keeps_record _, h.sizes, hInfos⟩⟩

/-- An envelope is parsed back as it was sent exactly when no member's user info is there and
is `null`. -/
theorem parse_toVec_iff (json : SerdeJson) (env : ScalingEnvelope) (hRange : env.InRange)
    (hReads : json.ReadsBack env) :
    parse json (env.toVec json) = some env ↔ ∀ info ∈ env.payload.infos, info ≠ some .null := by
  have hValue : json.fromSlice (env.toVec json) = some (ScalingEnvelope.format.write env) := hReads
  rw [parse, hValue, Option.bind_some]
  exact ScalingEnvelope.keeps_record.trans (and_iff_right hRange)

/-- A library that prints and reads one text. -/
def SerdeJson.only (env : ScalingEnvelope) (text : String) : SerdeJson where
  toVec _ := text.toUTF8.toList
  fromSlice bytes :=
    if bytes = text.toUTF8.toList then some (ScalingEnvelope.format.write env) else none

theorem SerdeJson.readsBack_only (env : ScalingEnvelope) (text : String) :
    (only env text).ReadsBack env := if_pos rfl

def added (userInfo : Option Value) : ScalingEnvelope :=
  ⟨2, 7, ⟨"app", "key"⟩, .MemberAdded "node" "presence-room" "u" userInfo⟩

def addedText (userInfo : String) : String :=
  "\x7b\"v\":2,\"seq\":7,\"app\":\x7b\"id\":\"app\",\"key\":\"key\"\x7d," ++
    "\"type\":\"member_added\",\"origin_node_id\":\"node\",\"channel\":\"presence-room\"," ++
    "\"user_id\":\"u\",\"user_info\":" ++ userInfo ++ "\x7d"

def addedNamed : ScalingEnvelope := added (some (.object [("name", .string "U")]))

def namedJson : SerdeJson := .only addedNamed (addedText "\x7b\"name\":\"U\"\x7d")

theorem parse_toVec_addedNamed :
    parse namedJson (addedNamed.toVec namedJson) = some addedNamed := by
  have hRange : addedNamed.InRange := ⟨by decide, by decide, by rintro _ ⟨⟩⟩
  refine (parse_toVec_iff namedJson addedNamed hRange (SerdeJson.readsBack_only ..)).mpr
    fun info hMem hNull => ?_
  cases hNull
  cases List.mem_singleton.mp hMem

def addedNull : ScalingEnvelope := added (some .null)

/-- The `null` that was sent is not there any more, whatever text it was sent as. -/
theorem null_info_lost : addedNull.InRange ∧
      SerdeJson.ReadsBack (.only addedNull (addedText "null")) addedNull ∧
      (∀ json : SerdeJson, json.ReadsBack addedNull →
        parse json (addedNull.toVec json) = some (added none)) ∧ added none ≠ addedNull := by
  refine ⟨⟨by decide, by decide, by rintro _ ⟨⟩⟩, SerdeJson.readsBack_only ..,
    fun json hReads => ?_, by rintro ⟨⟩⟩
  have hValue : json.fromSlice (addedNull.toVec json) =
      some (ScalingEnvelope.format.write addedNull) := hReads
  rw [parse, hValue]
  rfl

end Zatat
