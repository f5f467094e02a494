import Zatat.Lib.Json
import Zatat.Protocol.Primitives

/-! # Frames as text

The frames that a node sends are written by hand: strings are escaped character by
character, and the sender's id is put into a finished frame in place of its last brace. The
text denotes the object that was meant, whatever the strings are.
-/

namespace Zatat

open Json

/-- `{:04x}`. -/
def lowerHex4 (n : Nat) : List Char :=
  [n / 4096, n / 256, n / 16, n].map fun digit => "0123456789abcdef".toList.getD (digit % 16) '0'

def writeJsonChar (c : Char) : List Char :=
  if c = '"' then ['\\', '"']
  else if c = '\\' then ['\\', '\\']
  else if c = '\n' then ['\\', 'n']
  else if c = '\r' then ['\\', 'r']
  else if c = '\t' then ['\\', 't']
  else if c = '\x08' then ['\\', 'b']
  else if c = '\x0c' then ['\\', 'f']
  else if c.toNat < 0x20 then '\\' :: 'u' :: lowerHex4 c.toNat
  else [c]

def writeJsonString (buf : List Char) (s : String) : List Char :=
  buf ++ ['"'] ++ s.toList.flatMap writeJsonChar ++ ['"']

def encodeEnvelopeRawData (event : String) (dataRaw channel : Option String) : String :=
  let buf := writeJsonString "\x7b\"event\":".toList event
  let buf := match dataRaw with
    | some raw => writeJsonString (buf ++ ",\"data\":".toList) raw
    | none => buf
  let buf := match channel with
    | some channel => writeJsonString (buf ++ ",\"channel\":".toList) channel
    | none => buf
  String.ofList (buf ++ ['\x7d'])

def encodeClientEvent (event dataRaw channel : String) (userId : Option String) : String :=
  let buf := encodeEnvelopeRawData event (some dataRaw) (some channel)
  match userId with
  | some userId =>
    String.ofList
      (writeJsonString (buf.toList.dropLast ++ ",\"user_id\":".toList) userId ++ ['\x7d'])
  | none => buf

/-- What `InboundFrame` takes from an object of strings; other members are ignored. -/
def InboundFrame.ofFields (fields : List (String × String)) : Option InboundFrame :=
  (fields.lookup "event").map fun event =>
    ⟨event, ((fields.lookup "data").map .string).getD .null, fields.lookup "channel"⟩

/-- What is assumed of `serde_json::from_str`: an object of strings with different names is
read into the fields of a frame. -/
def ReadsStrings (parseInbound : String → Option InboundFrame) : Prop :=
  ∀ text fields, Denotes text (stringObject fields) → (fields.map Prod.fst).Nodup →
    parseInbound text = InboundFrame.ofFields fields

/-- The members of a frame, in order. -/
def frameFields (event : String) (data channel userId : Option String) : List (String × String) :=
  ("event", event) :: ((data.map (("data", ·))).toList ++ (channel.map (("channel", ·))).toList ++
    (userId.map (("user_id", ·))).toList)

/-- The text denotes the object with these members and nothing else, and is parsed as it. -/
structure DecodesTo (parseInbound : String → Option InboundFrame) (text event : String)
    (data channel userId : Option String) : Prop where
  denotes : ∀ v, Denotes text v ↔ v = stringObject (frameFields event data channel userId)
  parsed : parseInbound text = some ⟨event, (data.map .string).getD .null, channel⟩

/-! ## Strings and members -/

theorem codeUnit_lowerHex4 {n : Nat} (h : n < 0x20) (rest : List Char) :
    codeUnit (lowerHex4 n ++ rest) = some (n, rest) := by
  have hDigits : ∀ n < 0x20, ((lowerHex4 n).mapM hexValue).map
      (fun digits => digits.foldl (fun n digit => 16 * n + digit) 0) = some n := by decide
  obtain ⟨digits, hMap, hFold⟩ := Option.map_eq_some_iff.mp (hDigits n h)
  exact Option.map_eq_some_iff.mpr ⟨digits, hMap, Prod.ext hFold rfl⟩

theorem stringChar_write (c : Char) (rest : List Char) :
    stringChar (writeJsonChar c ++ rest) = some (c, rest) := by
  rw [writeJsonChar]
  split_ifs with hQuote hSlash hNewline hReturn hTab hBack hFeed hControl
  · rw [hQuote]; rfl
  · rw [hSlash]; rfl
  · rw [hNewline]; rfl
  · rw [hReturn]; rfl
  · rw [hTab]; rfl
  · rw [hBack]; rfl
  · rw [hFeed]; rfl
  · have hValid : c.toNat.isValidChar := Or.inl (hControl.trans (by decide))
    have hUnicode : stringChar ('\\' :: 'u' :: lowerHex4 c.toNat ++ rest) =
        unicodeChar (lowerHex4 c.toNat ++ rest) := rfl
    rw [hUnicode, unicodeChar, codeUnit_lowerHex4 hControl]
    exact (if_pos hValid).trans (by rw [Char.ofNat_toNat])
  · refine (if_neg hSlash).trans (if_neg ?_)
    simp [hQuote, hControl]

theorem stringTail_write (chars rest : List Char) :
    StringTail (chars.flatMap writeJsonChar ++ '"' :: rest) chars rest := by
  induction chars with
  | nil => exact .close rest
  | cons c chars ih =>
    rw [List.flatMap_cons, List.append_assoc]
    exact .char (stringChar_write c _) ih

def memberText (f : String × String) : List Char :=
  writeJsonString (writeJsonString [] f.1 ++ [':']) f.2

def moreText : List (String × String) → List Char
  | [] => ['\x7d']
  | f :: fields => ',' :: (memberText f ++ moreText fields)

theorem named_memberText (f : String × String) (rest : List Char) :
    Named (memberText f ++ rest) (f.1, .string f.2) rest := by
  have hText : memberText f ++ rest = '"' :: (f.1.toList.flatMap writeJsonChar ++
      '"' :: ':' :: '"' :: (f.2.toList.flatMap writeJsonChar ++ '"' :: rest)) := by
    simp [memberText, writeJsonString]
  have hNamed := Named.intro (congrArg skip hText) (stringTail_write f.1.toList _) rfl
    (.string (stringTail_write f.2.toList rest))
  rw [String.ofList_toList, String.ofList_toList] at hNamed
  exact hNamed

theorem members_write (f : String × String) (fields : List (String × String)) :
    Members (memberText f ++ moreText fields)
      ((f :: fields).map fun f => (f.1, .string f.2)) [] := by
  induction fields generalizing f with
  | nil => exact .last (named_memberText f _) rfl
  | cons f' fields ih => exact .more (named_memberText f _) rfl (ih f')

theorem denotes_write (f : String × String) (fields : List (String × String)) :
    Denotes (String.ofList ('\x7b' :: (memberText f ++ moreText fields)))
      (stringObject (f :: fields)) := by
  refine ⟨[], ?_, rfl⟩
  rw [String.toList_ofList]
  exact .object (members_write f fields)

/-! ## Frames -/

theorem writeJsonString_member (buf : List Char) (key k v : String)
    (hKey : key.toList = ',' :: (writeJsonString [] k ++ [':'])) :
    writeJsonString (buf ++ key.toList) v = buf ++ ',' :: memberText (k, v) := by
  simp [hKey, memberText, writeJsonString]

theorem encodeEnvelopeRawData_eq (event : String) (data channel : Option String) :
    encodeEnvelopeRawData event data channel = String.ofList ('\x7b' ::
      (memberText ("event", event) ++ moreText (frameFields event data channel none).tail)) := by
  have hKey : "\x7b\"event\":".toList = '\x7b' :: (writeJsonString [] "event" ++ [':']) := rfl
  have hEvent : writeJsonString "\x7b\"event\":".toList event =
      '\x7b' :: memberText ("event", event) := by
    simp [hKey, memberText, writeJsonString]
  refine congrArg String.ofList ?_
  rw [hEvent]
  cases data <;> cases channel <;>
    simp only [writeJsonString_member _ ",\"data\":" "data" _ rfl,
      writeJsonString_member _ ",\"channel\":" "channel" _ rfl] <;>
    simp [frameFields, moreText]

theorem encodeClientEvent_eq (event dataRaw channel : String) (userId : Option String) :
    encodeClientEvent event dataRaw channel userId = String.ofList ('\x7b' ::
      (memberText ("event", event) ++
        moreText (frameFields event (some dataRaw) (some channel) userId).tail)) := by
  cases userId with
  | none => exact encodeEnvelopeRawData_eq event (some dataRaw) (some channel)
  | some userId =>
    refine congrArg String.ofList ?_
    rw [encodeEnvelopeRawData_eq, String.toList_ofList,
      writeJsonString_member _ ",\"user_id\":" "user_id" _ rfl]
    simp [frameFields, moreText, List.dropLast_cons_of_ne_nil, List.dropLast_append_of_ne_nil]

theorem decodesTo_write {parseInbound : String → Option InboundFrame}
    (hSerde : ReadsStrings parseInbound) (event : String) (data channel userId : Option String) :
    DecodesTo parseInbound (String.ofList ('\x7b' :: (memberText ("event", event) ++
      moreText (frameFields event data channel userId).tail))) event data channel userId := by
  have hDenotes := denotes_write ("event", event) (frameFields event data channel userId).tail
  constructor
  · exact fun v => ⟨hDenotes.unique, fun h => h ▸ hDenotes⟩
  · have hDistinct : ((frameFields event data channel userId).map Prod.fst).Nodup := by
      cases data <;> cases channel <;> cases userId <;> simp [frameFields]
    rw [hSerde _ _ hDenotes hDistinct]
    cases data <;> cases channel <;> cases userId <;> rfl

theorem frames_decode (parseInbound : String → Option InboundFrame)
    (hSerde : ReadsStrings parseInbound) :
    (∀ event data channel, DecodesTo parseInbound (encodeEnvelopeRawData event data channel)
      event data channel none) ∧ ∀ event dataRaw channel userId, DecodesTo parseInbound
      (encodeClientEvent event dataRaw channel userId) event (some dataRaw) (some channel)
      userId := by
  constructor
  · intro event data channel
    rw [encodeEnvelopeRawData_eq]
    exact decodesTo_write hSerde ..
  · intro event dataRaw channel userId
    rw [encodeClientEvent_eq]
    exact decodesTo_write hSerde ..

/-- A parser that reads objects of strings by what they denote. -/
noncomputable def readStrings (text : String) : Option InboundFrame :=
  open Classical in
  if h : ∃ fields, Denotes text (stringObject fields) then InboundFrame.ofFields h.choose else none

theorem readsStrings_readStrings : ReadsStrings readStrings := by
  intro text fields hDenotes _
  have hExists : ∃ fields, Denotes text (stringObject fields) := ⟨fields, hDenotes⟩
  have hInjective : Function.Injective fun f : String × String => (f.1, Json.Value.string f.2) := by
    rintro ⟨k, v⟩ ⟨k', v'⟩ hEq
    cases hEq
    rfl
  have hChosen := List.map_injective_iff.mpr hInjective
    (Json.Value.object.inj (hDenotes.unique hExists.choose_spec))
  rw [readStrings, dif_pos hExists, hChosen]

theorem quoted_event_decodes : ReadsStrings readStrings ∧
    DecodesTo readStrings (encodeClientEvent "client-typing" "\"" "private-room" (some "7"))
      "client-typing" (some "\"") (some "private-room") (some "7") :=
  ⟨readsStrings_readStrings, (frames_decode readStrings readsStrings_readStrings).2 ..⟩

end Zatat
