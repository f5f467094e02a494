import Mathlib.Data.List.Basic
import Mathlib.Data.String.Basic

/-! # The grammar of JSON texts

What a text denotes is a relation between the text, a value and what is left of the text
after the value. A text that denotes an object of strings denotes nothing else.
-/

namespace Json

inductive Value where
  | null
  | bool (b : Bool)
  | number (text : List Char)
  | string (text : String)
  | array (items : List Value)
  | object (members : List (String × Value))

/-- Passes over white space, which nothing that follows begins with. -/
def skip (input : List Char) : List Char :=
  input.dropWhile fun c => [' ', '\t', '\n', '\r'].contains c

/-! ## Strings -/

def hexValue (c : Char) : Option Nat :=
  if '0' ≤ c ∧ c ≤ '9' then some (c.toNat - 48)
  else if 'a' ≤ c ∧ c ≤ 'f' then some (c.toNat - 87)
  else if 'A' ≤ c ∧ c ≤ 'F' then some (c.toNat - 55)
  else none

def codeUnit (input : List Char) : Option (Nat × List Char) :=
  match input with
  | a :: b :: c :: d :: rest =>
    ([a, b, c, d].mapM hexValue).map fun digits =>
      (digits.foldl (fun n digit => 16 * n + digit) 0, rest)
  | _ => none

def shortEscapes : List (Char × Char) :=
  [('"', '"'), ('\\', '\\'), ('/', '/'), ('b', '\x08'), ('f', '\x0c'), ('n', '\n'), ('r', '\r'),
    ('t', '\t')]

/-- A character after `\u`. A unit of a surrogate pair stands for none by itself. -/
def unicodeChar (input : List Char) : Option (Char × List Char) :=
  (codeUnit input).bind fun (high, rest) =>
    if high.isValidChar then some (Char.ofNat high, rest)
    else match rest with
      | '\\' :: 'u' :: rest => (codeUnit rest).bind fun (low, rest) =>
        if high < 0xdc00 ∧ 0xdc00 ≤ low ∧ low < 0xe000 then
          some (Char.ofNat (0x10000 + (high - 0xd800) * 0x400 + (low - 0xdc00)), rest)
        else none
      | _ => none

/-- The first character of what stands between quotes. -/
def stringChar (input : List Char) : Option (Char × List Char) :=
  match input with
  | [] => none
  | c :: rest =>
    if c = '\\' then
      match rest with
      | [] => none
      | e :: rest => if e = 'u' then unicodeChar rest else (shortEscapes.lookup e).map (·, rest)
    else if c = '"' ∨ c.toNat < 0x20 then none
    else some (c, rest)

/-- The text up to the closing quote. -/
inductive StringTail : List Char → List Char → List Char → Prop
  | close (rest : List Char) : StringTail ('"' :: rest) [] rest
  | char {input mid rest text : List Char} {c : Char} : stringChar input = some (c, mid) →
      StringTail mid text rest → StringTail input (c :: text) rest

/-! ## Values -/

def IsDigits (text : List Char) : Prop := text ≠ [] ∧ ∀ c ∈ text, c.isDigit = true

/-- A sign, a whole part without leading zeros, a fraction and an exponent. -/
def IsNumber (text : List Char) : Prop :=
  ∃ minus whole fraction exponent, text = minus ++ whole ++ fraction ++ exponent ∧
    minus ∈ [[], ['-']] ∧ IsDigits whole ∧ (whole.head? = some '0' → whole = ['0']) ∧
    (fraction = [] ∨ ∃ digits, fraction = '.' :: digits ∧ IsDigits digits) ∧
    (exponent = [] ∨ ∃ e sign digits, exponent = e :: sign ++ digits ∧ e ∈ ['e', 'E'] ∧
      sign ∈ [[], ['+'], ['-']] ∧ IsDigits digits)

mutual

inductive Reads : List Char → Value → List Char → Prop
  | null (rest : List Char) : Reads ("null".toList ++ rest) .null rest
  | bool (b : Bool) (rest : List Char) : Reads ((toString b).toList ++ rest) (.bool b) rest
  | number {text : List Char} (rest : List Char) : IsNumber text →
      Reads (text ++ rest) (.number text) rest
  | string {input text rest : List Char} : StringTail input text rest →
      Reads ('"' :: input) (.string (String.ofList text)) rest
  | emptyArray {input rest : List Char} : skip input = ']' :: rest →
      Reads ('[' :: input) (.array []) rest
  | array {input rest : List Char} {items : List Value} : Elements input items rest →
      Reads ('[' :: input) (.array items) rest
  | emptyObject {input rest : List Char} : skip input = '\x7d' :: rest →
      Reads ('\x7b' :: input) (.object []) rest
  | object {input rest : List Char} {members : List (String × Value)} :
      Members input members rest → Reads ('\x7b' :: input) (.object members) rest

/-- The items up to the closing bracket. -/
inductive Elements : List Char → List Value → List Char → Prop
  | last {input mid rest : List Char} {v : Value} : Reads (skip input) v mid →
      skip mid = ']' :: rest → Elements input [v] rest
  | more {input mid next rest : List Char} {v : Value} {items : List Value} :
      Reads (skip input) v mid → skip mid = ',' :: next → Elements next items rest →
      Elements input (v :: items) rest

/-- A name, a colon and a value. -/
inductive Named : List Char → String × Value → List Char → Prop
  | intro {input opened named colon mid name : List Char} {v : Value} :
      skip input = '"' :: opened → StringTail opened name named → skip named = ':' :: colon →
      Reads (skip colon) v mid → Named input (String.ofList name, v) mid

/-- The members up to the closing brace. -/
inductive Members : List Char → List (String × Value) → List Char → Prop
  | last {input mid rest : List Char} {m : String × Value} : Named input m mid →
      skip mid = '\x7d' :: rest → Members input [m] rest
  | more {input mid next rest : List Char} {m : String × Value} {members : List (String × Value)} :
      Named input m mid → skip mid = ',' :: next → Members next members rest →
      Members input (m :: members) rest

end

def Denotes (text : String) (v : Value) : Prop :=
  ∃ rest, Reads (skip text.toList) v rest ∧ skip rest = []

def stringObject (fields : List (String × String)) : Value :=
  .object (fields.map fun f => (f.1, .string f.2))

variable {input rest rest' : List Char} {text : String} {v : Value}
  {fields : List (String × String)} {members : List (String × Value)}

/-! ## Texts that denote one object -/

theorem StringTail.unique {text text' : List Char} (h : StringTail input text rest)
    (h' : StringTail input text' rest') : text = text' ∧ rest = rest' := by
  induction h generalizing text' with
  | close rest =>
    cases h' with
    | close => exact ⟨rfl, rfl⟩
    | char hChar => cases hChar
  | char hChar _ ih =>
    cases h' with
    | close => cases hChar
    | char hChar' hTail' =>
      cases hChar.symm.trans hChar'
      obtain ⟨rfl, rfl⟩ := ih hTail'
      exact ⟨rfl, rfl⟩

theorem IsNumber.head {text : List Char} {c : Char} (h : IsNumber text)
    (hInput : c :: input = text ++ rest) : c = '-' ∨ c.isDigit = true := by
  obtain ⟨minus, whole, fraction, exponent, rfl, hMinus, ⟨hSome, hDigits⟩, -⟩ := h
  obtain ⟨d, whole, rfl⟩ := List.exists_cons_of_ne_nil hSome
  simp only [List.mem_cons, List.not_mem_nil, or_false] at hMinus
  rcases hMinus with rfl | rfl
  · cases hInput
    exact .inr (hDigits c List.mem_cons_self)
  · cases hInput
    exact .inl rfl

theorem Reads.of_quote (h : Reads ('"' :: input) v rest) :
    ∃ text, v = .string (String.ofList text) ∧ StringTail input text rest := by
  generalize hInput : '"' :: input = whole at h
  cases h with
  | bool b => cases b <;> cases hInput
  | number rest hNumber => exact absurd (hNumber.head hInput) (by decide)
  | string hTail =>
    cases hInput
    exact ⟨_, rfl, hTail⟩
  | _ => cases hInput

theorem Reads.of_brace (h : Reads ('\x7b' :: input) v rest) :
    v = .object [] ∧ skip input = '\x7d' :: rest ∨
      ∃ members, v = .object members ∧ Members input members rest := by
  generalize hInput : '\x7b' :: input = whole at h
  cases h with
  | bool b => cases b <;> cases hInput
  | number rest hNumber => exact absurd (hNumber.head hInput) (by decide)
  | emptyObject hEnd =>
    cases hInput
    exact .inl ⟨rfl, hEnd⟩
  | object hMembers =>
    cases hInput
    exact .inr ⟨_, rfl, hMembers⟩
  | _ => cases hInput

theorem Reads.string_inv (h : Reads input (.string text) rest) : ∃ inner, input = '"' :: inner := by
  cases h
  exact ⟨_, rfl⟩

theorem Named.unique {mid mid' : List Char} {name : String} {m : String × Value}
    (h : Named input (name, .string text) mid) (h' : Named input m mid') :
    m = (name, .string text) ∧ mid' = mid := by
  cases h with
  | intro hOpened hName hColon hValue =>
    cases h' with
    | intro hOpened' hName' hColon' hValue' =>
      cases hOpened.symm.trans hOpened'
      obtain ⟨rfl, rfl⟩ := hName.unique hName'
      cases hColon.symm.trans hColon'
      obtain ⟨inner, hInner⟩ := hValue.string_inv
      rw [hInner] at hValue hValue'
      obtain ⟨t, hEq, hTail⟩ := hValue.of_quote
      obtain ⟨t', rfl, hTail'⟩ := hValue'.of_quote
      obtain ⟨rfl, rfl⟩ := hTail.unique hTail'
      exact ⟨by rw [hEq], rfl⟩

theorem Members.unique (h : Members input (fields.map fun f => (f.1, .string f.2)) rest)
    (h' : Members input members rest') :
    members = (fields.map fun f => (f.1, .string f.2)) ∧ rest' = rest := by
  induction fields generalizing input members with
  | nil => cases h
  | cons f fields ih =>
    rw [List.map_cons] at h ⊢
    generalize hMap : fields.map (fun f => (f.1, Value.string f.2)) = others at h ih ⊢
    cases h with
    | last hNamed hEnd =>
      cases h' with
      | last hNamed' hEnd' =>
        obtain ⟨rfl, rfl⟩ := hNamed.unique hNamed'
        cases hEnd.symm.trans hEnd'
        exact ⟨rfl, rfl⟩
      | more hNamed' hNext' =>
        obtain ⟨rfl, rfl⟩ := hNamed.unique hNamed'
        cases hEnd.symm.trans hNext'
    | more hNamed hNext hMore =>
      cases h' with
      | last hNamed' hEnd' =>
        obtain ⟨rfl, rfl⟩ := hNamed.unique hNamed'
        cases hNext.symm.trans hEnd'
      | more hNamed' hNext' hMore' =>
        obtain ⟨rfl, rfl⟩ := hNamed.unique hNamed'
        cases hNext.symm.trans hNext'
        obtain ⟨rfl, rfl⟩ := ih hMore hMore'
        exact ⟨rfl, rfl⟩

theorem Members.quote (h : Members input members rest) : ∃ opened, skip input = '"' :: opened := by
  cases h with
  | last hNamed | more hNamed =>
    cases hNamed with
    | intro hOpened => exact ⟨_, hOpened⟩

theorem Reads.object_inv (h : Reads input (.object members) rest) :
    ∃ inner, input = '\x7b' :: inner := by
  cases h <;> exact ⟨_, rfl⟩

theorem Denotes.unique (h : Denotes text (stringObject fields)) (h' : Denotes text v) :
    v = stringObject fields := by
  obtain ⟨rest, hReads, -⟩ := h
  obtain ⟨rest', hReads', -⟩ := h'
  obtain ⟨inner, hInner⟩ := hReads.object_inv
  rw [hInner] at hReads hReads'
  rcases hReads.of_brace with ⟨hNone, hEnd⟩ | ⟨members, hEq, hMembers⟩
  · rcases hReads'.of_brace with ⟨rfl, -⟩ | ⟨members', rfl, hMembers'⟩
    · exact hNone.symm
    · obtain ⟨opened, hOpened⟩ := hMembers'.quote
      cases hEnd.symm.trans hOpened
  · cases hEq
    rcases hReads'.of_brace with ⟨rfl, hEnd'⟩ | ⟨members', rfl, hMembers'⟩
    · obtain ⟨opened, hOpened⟩ := hMembers.quote
      cases hEnd'.symm.trans hOpened
    · rw [stringObject, (hMembers.unique hMembers').1]

end Json
