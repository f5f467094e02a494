import Mathlib.Data.List.Basic
import Mathlib.Logic.Equiv.Defs

/-! # Records on the wire

How derived code writes a record as named fields and reads it back. A field may
be left out when it has a default; a field that is missing takes it, names that
nobody asks for are passed over, and a name given twice is an error. A record
knows the names it writes, and reads no others, so that records with different
names can share one object; so can the alternatives of a tagged union. What is
read back is settled field by field.
-/

namespace Wire

open List Option

universe u v w

variable {V : Type u} {α : Type v} {β : Type w}

structure Format (V : Type u) (α : Type v) where
  write : α → V
  read : V → Option α

/-- What is written is read back. -/
def Format.Keeps (f : Format V α) (a : α) : Prop := f.read (f.write a) = some a

/-! ## Fields -/

/-- A field is written or left out, and is read where it is there or missing. -/
structure Field (V : Type u) (α : Type v) where
  name : String
  write : α → Option V
  read : Option V → Option α

namespace Field

def Keeps (f : Field V α) (a : α) : Prop := f.read (f.write a) = some a

def required (name : String) (f : Format V α) : Field V α where
  name := name
  write a := some (f.write a)
  read v := v.bind f.read

/-- Left out when `skip` says so, and the default where it is missing. -/
def skipIf (name : String) (f : Format V α) (skip : α → Bool) (default : α) : Field V α where
  name := name
  write a := if skip a then none else some (f.write a)
  read v := v.elim (some default) f.read

def withDefault (name : String) (f : Format V α) (default : α) : Field V α :=
  skipIf name f (fun _ => false) default

variable {name : String} {f : Format V α} {default a : α}

@[simp]
theorem name_required : (required name f).name = name := rfl

@[simp]
theorem name_skipIf {skip : α → Bool} {default : α} :
    (skipIf name f skip default).name = name := rfl

@[simp]
theorem name_withDefault : (withDefault name f default).name = name := rfl

@[simp]
theorem keeps_required : (required name f).Keeps a ↔ f.Keeps a :=
  Iff.rfl

@[simp]
theorem keeps_withDefault : (withDefault name f default).Keeps a ↔ f.Keeps a :=
  Iff.rfl

/-- What is left out is read back when it is the default. -/
@[simp]
theorem keeps_skipIf {skip : α → Bool} {default a : α} : (skipIf name f skip default).Keeps a ↔
      (skip a = true → a = default) ∧ (skip a = false → f.Keeps a) := by
  cases h : skip a with
  | true =>
    have hWrite : (skipIf name f skip default).write a = none := if_pos h
    rw [Keeps, hWrite]
    exact ⟨fun hRead => ⟨fun _ => (Option.some.inj hRead).symm, by rintro ⟨⟩⟩,
      fun hSame => congrArg some (hSame.1 rfl).symm⟩
  | false =>
    have hWrite : (skipIf name f skip default).write a = some (f.write a) := if_neg (by simp [h])
    rw [Keeps, hWrite]
    exact ⟨fun hRead => ⟨by rintro ⟨⟩, fun _ => hRead⟩, fun hKept => hKept.2 rfl⟩

end Field

/-! ## Records -/

variable {fields other : List (String × V)} {name : String}

/-- The value under a name, if there is one; nothing when the name is given twice. -/
def lookup (fields : List (String × V)) (name : String) : Option (Option V) :=
  match fields.filter fun field => field.1 = name with
  | [] => some none
  | [field] => some (some field.2)
  | _ => none

theorem filter_eq_nil_of_notMem (h : name ∉ fields.map Prod.fst) :
    (fields.filter fun field => field.1 = name) = [] := by
  refine filter_eq_nil_iff.mpr fun field hMem hName => h ?_
  exact mem_map.mpr ⟨field, hMem, of_decide_eq_true hName⟩

theorem lookup_append_left (h : name ∉ other.map Prod.fst) :
    lookup (fields ++ other) name = lookup fields name := by
  rw [lookup, lookup, filter_append, filter_eq_nil_of_notMem h, append_nil]

theorem lookup_append_right (h : name ∉ other.map Prod.fst) :
    lookup (other ++ fields) name = lookup fields name := by
  rw [lookup, lookup, filter_append, filter_eq_nil_of_notMem h, nil_append]

theorem lookup_singleton (name : String) (v : V) : lookup [(name, v)] name = some (some v) := by
  rw [lookup, filter_cons_of_pos (by simp), filter_nil]

structure Record (V : Type u) (α : Type v) where
  names : List String
  write : α → List (String × V)
  read : List (String × V) → Option α
  writes : ∀ a, (write a).map Prod.fst ⊆ names
  reads : ∀ fields fields', (∀ name ∈ names, lookup fields name = lookup fields' name) →
    read fields = read fields'

namespace Record

def Keeps (r : Record V α) (a : α) : Prop := r.read (r.write a) = some a

theorem read_append_left (r : Record V α) {fields other : List (String × V)}
    (h : ∀ name ∈ r.names, name ∉ other.map Prod.fst) : r.read (fields ++ other) = r.read fields :=
  r.reads _ _ fun name hName => lookup_append_left (h name hName)

theorem read_append_right (r : Record V α) {fields other : List (String × V)}
    (h : ∀ name ∈ r.names, name ∉ other.map Prod.fst) : r.read (other ++ fields) = r.read fields :=
  r.reads _ _ fun name hName => lookup_append_right (h name hName)

variable {r : Record V α} {f : Field V α} {s : Record V β}

def field (f : Field V α) : Record V α where
  names := [f.name]
  write a := (f.write a).toList.map fun v => (f.name, v)
  read fields := (lookup fields f.name).bind f.read
  writes a := by
    cases f.write a with
    | none => exact List.nil_subset _
    | some v => exact List.Subset.refl _
  reads fields fields' h := by rw [h f.name (List.mem_singleton.mpr rfl)]

@[simp]
theorem names_field : (field f).names = [f.name] := rfl

@[simp]
theorem keeps_field {a : α} : (field f).Keeps a ↔ f.Keeps a := by
  rw [Keeps, Field.Keeps]
  change (lookup ((f.write a).toList.map fun v => (f.name, v)) f.name).bind f.read = _ ↔ _
  cases f.write a with
  | none => exact Iff.rfl
  | some v =>
    change (lookup [(f.name, v)] f.name).bind f.read = _ ↔ _
    rw [lookup_singleton]
    exact Iff.rfl

def and (r : Record V α) (s : Record V β) : Record V (α × β) where
  names := r.names ++ s.names
  write p := r.write p.1 ++ s.write p.2
  read fields := (r.read fields).bind fun a => (s.read fields).map fun b => (a, b)
  writes p := by
    rw [List.map_append]
    exact List.append_subset.mpr
      ⟨List.Subset.trans (r.writes p.1) (List.subset_append_left ..),
        List.Subset.trans (s.writes p.2) (List.subset_append_right ..)⟩
  reads fields fields' h := by
    rw [r.reads fields fields' fun name hName => h name (List.mem_append_left _ hName),
      s.reads fields fields' fun name hName => h name (List.mem_append_right _ hName)]

@[simp]
theorem names_and : (r.and s).names = r.names ++ s.names := rfl

theorem keeps_and (h : ∀ name ∈ r.names, name ∉ s.names) {p : α × β} :
    (r.and s).Keeps p ↔ r.Keeps p.1 ∧ s.Keeps p.2 := by
  have hLeft : r.read (r.write p.1 ++ s.write p.2) = r.read (r.write p.1) :=
    r.read_append_left fun name hName hOther => h name hName (s.writes p.2 hOther)
  have hRight : s.read (r.write p.1 ++ s.write p.2) = s.read (s.write p.2) :=
    s.read_append_right fun name hName hOther => h name (r.writes p.1 hOther) hName
  change (r.read (r.write p.1 ++ s.write p.2)).bind (fun a =>
    (s.read (r.write p.1 ++ s.write p.2)).map fun b => (a, b)) = some p ↔ _
  rw [hLeft, hRight, bind_eq_some_iff]
  refine ⟨fun ⟨a, hRead, hRest⟩ => ?_, fun ⟨hKept, hRest⟩ => ⟨p.1, hKept, ?_⟩⟩
  · obtain ⟨b, hOther, rfl⟩ := map_eq_some_iff.mp hRest
    exact ⟨hRead, hOther⟩
  · exact map_eq_some_iff.mpr ⟨p.2, hRest, rfl⟩

theorem keeps_field_and (h : f.name ∉ s.names) {p : α × β} :
    ((field f).and s).Keeps p ↔ f.Keeps p.1 ∧ s.Keeps p.2 := by
  rw [keeps_and fun name hName => mem_singleton.mp hName ▸ h, keeps_field]

def imap (r : Record V α) (e : α ≃ β) : Record V β where
  names := r.names
  write b := r.write (e.symm b)
  read fields := (r.read fields).map e
  writes b := r.writes (e.symm b)
  reads fields fields' h := by rw [r.reads fields fields' h]

@[simp]
theorem keeps_imap {e : α ≃ β} {b : β} : (r.imap e).Keeps b ↔ r.Keeps (e.symm b) := by
  change (r.read (r.write (e.symm b))).map e = some b ↔ _
  rw [map_eq_some_iff]
  refine ⟨fun ⟨a, hRead, hSame⟩ => ?_, fun hKept => ⟨_, hKept, e.apply_symm_apply b⟩⟩
  rw [Keeps, hRead, ← hSame, e.symm_apply_apply]

end Record

/-! ## Tagged unions -/

structure Variant (V : Type u) (α : Type v) where
  tag : String
  Body : Type w
  body : Record V Body
  make : Body → α
  make_injective : Function.Injective make

theorem find?_tag {variants : List (Variant.{u, v, w} V α)} {variant : Variant.{u, v, w} V α}
    (hMem : variant ∈ variants) (hNodup : (variants.map Variant.tag).Nodup) :
    (variants.find? fun other => other.tag = variant.tag) = some variant := by
  induction variants with
  | nil => cases hMem
  | cons first rest ih =>
    obtain ⟨hFirst, hRest⟩ := nodup_cons.mp hNodup
    rcases mem_cons.mp hMem with rfl | hLater
    · exact List.find?_cons_of_pos (by simp)
    · have hOther : first.tag ≠ variant.tag :=
        fun hSame => hFirst (hSame ▸ mem_map.mpr ⟨variant, hLater, rfl⟩)
      rw [List.find?_cons_of_neg (by simpa using hOther)]
      exact ih hLater hRest

/-- A union whose tag is a field beside those of the alternative. -/
structure Union (V : Type u) (α : Type v) where
  tagName : String
  text : Format V String
  variants : List (Variant.{u, v, w} V α)
  split : α → (variant : Variant.{u, v, w} V α) × variant.Body
  split_mem : ∀ a, (split a).1 ∈ variants
  make_split : ∀ a, (split a).1.make (split a).2 = a
  tags_nodup : (variants.map Variant.tag).Nodup
  tagName_notMem : ∀ variant ∈ variants, tagName ∉ variant.body.names
  text_keeps : ∀ tag, text.Keeps tag

namespace Union

variable (U : Union.{u, v, w} V α)

def write (a : α) : List (String × V) :=
  (U.tagName, U.text.write (U.split a).1.tag) :: (U.split a).1.body.write (U.split a).2

/-- The tag says which alternative's fields to read. -/
def read (fields : List (String × V)) : Option α :=
  (lookup fields U.tagName).bind fun value => (value.bind U.text.read).bind fun tag =>
    (U.variants.find? fun variant => variant.tag = tag).bind fun variant =>
      (variant.body.read fields).map variant.make

def record : Record V α where
  names := U.tagName :: U.variants.flatMap fun variant => variant.body.names
  write := U.write
  read := U.read
  writes a := by
    refine List.cons_subset_cons _ (List.Subset.trans ((U.split a).1.body.writes _) ?_)
    exact fun name hName => List.mem_flatMap.mpr ⟨_, U.split_mem a, hName⟩
  reads fields fields' h := by
    rw [read, read, h _ List.mem_cons_self]
    refine congrArg _ (funext fun value => congrArg _ (funext fun tag => ?_))
    cases hFind : U.variants.find? fun variant => variant.tag = tag with
    | none => rfl
    | some variant =>
      have hBody := variant.body.reads fields fields' fun name hName => h name
        (List.mem_cons_of_mem _ (List.mem_flatMap.mpr ⟨_, List.mem_of_find?_eq_some hFind, hName⟩))
      rw [Option.bind_some, Option.bind_some, hBody]

/-- An element of a union is read back when its alternative's fields are. -/
@[simp]
theorem keeps_record {a : α} : U.record.Keeps a ↔ (U.split a).1.body.Keeps (U.split a).2 := by
  have hMake := U.make_split a
  have hTagName := U.tagName_notMem _ (U.split_mem a)
  have hFind := find?_tag (U.split_mem a) U.tags_nodup
  have hText : U.text.read (U.text.write (U.split a).1.tag) = some (U.split a).1.tag :=
    U.text_keeps _
  have hWrite : U.write a = [(U.tagName, U.text.write (U.split a).1.tag)] ++
      (U.split a).1.body.write (U.split a).2 := rfl
  have hTag : lookup (U.write a) U.tagName = some (some (U.text.write (U.split a).1.tag)) := by
    rw [hWrite, lookup_append_left fun hIn => hTagName ((U.split a).1.body.writes _ hIn)]
    exact lookup_singleton ..
  have hBody : (U.split a).1.body.read (U.write a) =
      (U.split a).1.body.read ((U.split a).1.body.write (U.split a).2) := by
    rw [hWrite]
    refine (U.split a).1.body.read_append_right fun name hName hIn => ?_
    cases mem_singleton.mp hIn
    exact hTagName hName
  change U.read (U.write a) = some a ↔ _
  rw [read, hTag, bind_some, bind_some, hText, bind_some, hFind, bind_some, hBody, map_eq_some_iff]
  refine ⟨fun ⟨body, hRead, hSame⟩ => ?_, fun hKept => ⟨_, hKept, hMake⟩⟩
  rw [Record.Keeps, hRead, (U.split a).1.make_injective (hSame.trans hMake.symm)]

end Union

end Wire
