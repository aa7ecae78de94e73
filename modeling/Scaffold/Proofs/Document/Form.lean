import Mathlib.Data.List.Basic
import Mathlib.Data.List.Forall2
import Scaffold.Document.Basic

/-!
Forms of documents: which type a value has, and for an object which values stand under its keys. A
form leaves the other keys of an object open, unless it is a strict one. `only` drops them, and what
it leaves is known from the values under the keys of the form.
-/
namespace Scaffold
namespace Document

theorem text?_eq_some_iff {document : Document} {value : String} :
    document.text? = some value ↔ document = .text value := by
  cases document <;> simp [text?]

theorem bool?_eq_some_iff {document : Document} {value : Bool} :
    document.bool? = some value ↔ document = .bool value := by
  cases document <;> simp [bool?]

theorem list?_eq_some_iff {document : Document} {items : List Document} :
    document.list? = some items ↔ document = .list items := by
  cases document <;> simp [list?]

theorem object?_eq_some_iff {document : Document} {fields : Fields} :
    document.object? = some fields ↔ document = .object fields := by
  cases document <;> simp [object?]

def IsText (holds : String → Prop) (document : Document) : Prop :=
  ∃ value, document = .text value ∧ holds value

def IsFlag (document : Document) : Prop := ∃ value, document = .bool value

def IsListOf (form : Document → Prop) (document : Document) : Prop :=
  ∃ items, document = .list items ∧ ∀ item ∈ items, form item

/-- An object with values of given forms under some keys, and under others only such values. -/
def IsObject (required allowed : List (String × (Document → Prop))) (document : Document) : Prop :=
  ∃ fields, document = .object fields ∧
    (∀ entry ∈ required, ∃ value, Fields.get? fields entry.1 = some value ∧ entry.2 value) ∧
    ∀ entry ∈ allowed, ∀ value, Fields.get? fields entry.1 = some value → entry.2 value

def IsPairOf (form : Document → Prop) (document : Document) : Prop :=
  ∃ first second, document = .list [first, second] ∧ form first ∧ form second

def keys (document : Document) : List String := (document.object?.map Fields.keys).getD []

/-- An object of a form that has no keys beside those of the form. -/
def IsStrict (required allowed : List (String × (Document → Prop))) (document : Document) : Prop :=
  document.IsObject required allowed ∧
    ∀ key ∈ document.keys, key ∈ (required ++ allowed).map (·.1)

/-- The same data, whatever the order of the keys in each object. -/
inductive Same : Document → Document → Prop
  | refl (document : Document) : Same document document
  | list {items others : List Document} (h : List.Forall₂ Same items others) :
      Same (.list items) (.list others)
  | object {fields others : Fields}
      (h : ∀ key, Option.Rel Same (Fields.get? fields key) (Fields.get? others key)) :
      Same (.object fields) (.object others)

def textAt? (key : String) (document : Document) : Option String :=
  (document.object?.bind (·.get? key)).bind text?

def itemsAt (key : String) (document : Document) : List Document :=
  ((document.object?.bind (·.get? key)).bind list?).getD []

/-- The texts that the items of a list of an object have under a key of their own. -/
def textsAt (list key : String) (document : Document) : List (Option String) :=
  (document.itemsAt list).map (textAt? key)

@[simp] theorem textAt?_object (key : String) (fields : Fields) :
    (object fields).textAt? key = (fields.get? key).bind text? := rfl

@[simp] theorem itemsAt_object (key : String) (fields : Fields) :
    (object fields).itemsAt key = ((fields.get? key).bind list?).getD [] := rfl

end Document

namespace Fields

theorem keys_append (fields others : Fields) :
    keys (fields ++ others) = fields.keys ++ others.keys :=
  List.map_append

theorem get?_append (fields others : Fields) (key : String) :
    get? (fields ++ others) key = (fields.get? key).or (others.get? key) :=
  List.lookup_append

theorem get?_eq_none {fields : Fields} {key : String} (h : key ∉ fields.keys) :
    fields.get? key = none := by
  rw [get?, List.lookup_eq_none_iff]
  intro field hfield
  have hne : key ≠ field.1 := by
    rintro rfl
    exact h (List.mem_map_of_mem hfield)
  simpa using hne

theorem get?_toList {α : Type} (value? : Option α) (key other : String) (write : α → Document) :
    get? (value?.map fun value => (key, write value)).toList other =
      if other = key then value?.map write else none := by
  cases value? with
  | none => simp [get?]
  | some value => exact get?_cons key other (write value) []

end Fields

/-- The values under the keys of a form, in its order and changed as it says. -/
def Fields.only (form : List (String × (Document → Document))) (fields : Fields) : Fields :=
  form.filterMap fun entry => (fields.get? entry.1).map fun value => (entry.1, entry.2 value)

theorem Fields.get?_only (form : List (String × (Document → Document))) (fields : Fields)
    (key : String) :
    (fields.only form).get? key = (form.lookup key).bind (fields.get? key).map := by
  induction form with
  | nil => rfl
  | cons entry form ih =>
    obtain ⟨other, change⟩ := entry
    rw [List.lookup_cons]
    by_cases hkey : key = other
    · subst hkey
      cases hvalue : fields.get? key <;> simp_all [only, get?_cons]
    · rw [beq_eq_false_iff_ne.2 hkey, ← ih]
      cases hvalue : fields.get? other <;> simp [only, hvalue, get?_cons, hkey]

theorem Fields.get?_only_of_mem {form : List (String × (Document → Document))}
    (hform : (form.map (·.1)).Nodup) {entry : String × (Document → Document)}
    (hentry : entry ∈ form) (fields : Fields) :
    (fields.only form).get? entry.1 = (fields.get? entry.1).map entry.2 := by
  have hlookup : form.lookup entry.1 = some entry.2 := by
    obtain ⟨earlier, later, rfl⟩ := List.append_of_mem hentry
    rw [List.map_append, List.map_cons, List.nodup_append] at hform
    refine List.lookup_eq_some_iff.2 ⟨earlier, later, rfl, ?_⟩
    intro other hother
    exact bne_iff_ne.2 (hform.2.2 _ (List.mem_map_of_mem hother) _ List.mem_cons_self).symm
  rw [get?_only, hlookup, Option.bind_some]

theorem Fields.only_eq_iff {form : List (String × (Document → Document))} {fields others : Fields}
    (hform : (form.map (·.1)).Nodup) (hothers : others.only form = others) :
    fields.only form = others ↔
      ∀ entry ∈ form, (fields.get? entry.1).map entry.2 = others.get? entry.1 := by
  constructor
  · rintro rfl entry hentry
    rw [get?_only_of_mem hform hentry]
  · intro h
    rw [← hothers]
    refine List.filterMap_congr fun entry hentry => ?_
    have hvalue : (others.get? entry.1).map entry.2 = others.get? entry.1 := by
      rw [← get?_only_of_mem hform hentry, hothers]
    calc (fields.get? entry.1).map (fun value => (entry.1, entry.2 value))
        = ((fields.get? entry.1).map entry.2).map (Prod.mk entry.1) := by rw [Option.map_map]; rfl
      _ = ((others.get? entry.1).map entry.2).map (Prod.mk entry.1) := by
        rw [h entry hentry, hvalue]
      _ = (others.get? entry.1).map (fun value => (entry.1, entry.2 value)) := by
        rw [Option.map_map]; rfl

namespace Document

def only (form : List (String × (Document → Document))) : Document → Document
  | object fields => object (Fields.only form fields)
  | document => document

def eachItem (change : Document → Document) : Document → Document
  | list items => list (items.map change)
  | document => document

@[simp] theorem eachItem_id : eachItem id = id := by
  funext document
  cases document <;> simp [eachItem]

theorem exists_fields_of_only_eq {form : List (String × (Document → Document))}
    {document : Document} {fields : Fields} (h : document.only form = .object fields) :
    ∃ others, document = .object others := by
  cases document with
  | object others => exact ⟨others, rfl⟩
  | _ => cases h

theorem eachItem_eq_list_iff {change : Document → Document} {document : Document}
    {items : List Document} :
    document.eachItem change = .list items ↔
      ∃ others, document = .list others ∧ others.map change = items := by
  cases document <;> simp [eachItem]

theorem list?_eachItem (change : Document → Document) (document : Document) :
    (document.eachItem change).list? = document.list?.map (List.map change) := by
  cases document <;> rfl

section
variable {form : List (String × (Document → Document))} {key : String}

theorem textAt?_only (h : form.lookup key = some id) (document : Document) :
    (document.only form).textAt? key = document.textAt? key := by
  cases document with
  | object fields => simp [only, Fields.get?_only, h]
  | _ => rfl

theorem itemsAt_only {change : Document → Document}
    (h : form.lookup key = some (eachItem change)) (document : Document) :
    (document.only form).itemsAt key = (document.itemsAt key).map change := by
  cases document with
  | object fields =>
    cases hvalue : Fields.get? fields key with
    | none => simp [only, Fields.get?_only, h, hvalue]
    | some value =>
      cases hitems : value.list? <;>
        simp [only, Fields.get?_only, h, hvalue, list?_eachItem, hitems]
  | _ => rfl

theorem textsAt_only {items : List (String × (Document → Document))} {list : String}
    (h : form.lookup list = some (eachItem (only items))) (hkey : items.lookup key = some id)
    (document : Document) : (document.only form).textsAt list key = document.textsAt list key := by
  rw [textsAt, itemsAt_only h, List.map_map, textsAt]
  exact List.map_congr_left fun item _ => textAt?_only hkey item

end

end Document
end Scaffold
