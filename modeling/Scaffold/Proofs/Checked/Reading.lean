import Mathlib.Data.List.Forall2
import Scaffold.Checked
import Scaffold.Proofs.Document.Form

/-!
What a check finds in a document, whether or not it is content with it. Only the types of a document
decide this: an empty text is found as well as any other. `Reads` ties what a check finds to the
document that writes it, and `Covers` to a form.
-/
namespace Scaffold

theorem Checked.value?_map_eq_some_iff {α β : Type} {f : α → β} {c : Checked α} {value : β} :
    (f <$> c).value? = some value ↔ ∃ x, c.value? = some x ∧ f x = value := by
  rw [value?_map, Option.map_eq_some_iff]

theorem Checked.value?_seq_eq_some_iff {α β : Type} {f : Checked (α → β)} {c : Checked α}
    {value : β} :
    (f <*> c).value? = some value ↔
      ∃ g, f.value? = some g ∧ ∃ x, c.value? = some x ∧ g x = value := by
  simp only [value?_seq, Option.bind_eq_some_iff, Option.map_eq_some_iff]

@[simp] theorem Fields.value?_check {α : Type} (fields : Fields) (key : String) (check : Check α) :
    (fields.check key check).value? = (check (fields.get? key)).value? := by
  simp [Fields.check]

namespace Check

variable {α β : Type} {check : Check α} {trim : Document → Document} {write : α → Document}
  {form : Document → Prop} {holds : α → Prop} {document : Option Document}

/-- A check finds the value that a document writes once it is trimmed. -/
def Reads (check : Check α) (trim : Document → Document) (write : α → Document) : Prop :=
  ∀ document value, (check document).value? = some value ↔ document.map trim = some (write value)

/-- A check finds a value of a property exactly in the documents of a form. -/
def Covers (check : Check α) (form : Document → Prop) (holds : α → Prop) : Prop :=
  ∀ document, (∃ given, document = some given ∧ form given) ↔
    ∃ value, (check document).value? = some value ∧ holds value

theorem value?_ofType_eq_some_iff {expected : String} {read? : Document → Option β}
    {next : β → Checked α} {value : α} :
    (ofType expected read? next document).value? = some value ↔
      ∃ x, document.bind read? = some x ∧ (next x).value? = some value := by
  cases document with
  | none => simp [ofType, Checked.value?]
  | some document =>
    cases h : read? document with
    | none => simp [ofType, h, Checked.value?]
    | some x => simp [ofType, h]

theorem reads_ofType {expected : String} {read? : Document → Option α}
    (h : ∀ document value, read? document = some value ↔ document = write value) :
    (ofType expected read? pure).Reads id write := by
  intro document value
  rw [value?_ofType_eq_some_iff]
  simp [Option.bind_eq_some_iff, h]

theorem reads_anyText : anyText.Reads id .text := reads_ofType fun _ _ => Document.text?_eq_some_iff

theorem reads_flag : flag.Reads id .bool := reads_ofType fun _ _ => Document.bool?_eq_some_iff

theorem Reads.refine (h : check.Reads trim write) (more : α → List Issue) :
    Reads (fun document => (check document).refine more) trim write := by
  intro document value
  rw [Checked.value?_refine]
  exact h document value

theorem Covers.refine (h : check.Covers form holds) (more : α → List Issue) :
    Covers (fun document => (check document).refine more) form holds := by
  intro document
  simp only [Checked.value?_refine]
  exact h document

theorem reads_name : name.Reads id .text := reads_anyText.refine _

theorem covers_of_reads_text {check : Check String} (h : check.Reads id .text)
    (named : String → Prop) : check.Covers (Document.IsText named) named := by
  intro document
  simp only [h document, Option.map_id, id_eq, Document.IsText]
  constructor
  · rintro ⟨_, rfl, value, rfl, hvalue⟩
    exact ⟨value, rfl, hvalue⟩
  · rintro ⟨value, rfl, hvalue⟩
    exact ⟨_, rfl, value, rfl, hvalue⟩

theorem covers_flag : flag.Covers Document.IsFlag fun _ => True := by
  intro document
  simp only [reads_flag document, Option.map_id, id_eq, Document.IsFlag]
  constructor
  · rintro ⟨_, rfl, value, rfl⟩
    exact ⟨value, rfl, trivial⟩
  · rintro ⟨value, rfl, -⟩
    exact ⟨_, rfl, value, rfl⟩

theorem Reads.value?_optional (h : check.Reads trim write) {value : Option α} :
    (optional check document).value? = some value ↔ document.map trim = value.map write := by
  cases document with
  | none => cases value <;> simp [optional]
  | some document =>
    have hread := h (some document)
    cases value <;> simp_all [optional]

theorem Covers.value?_optional (h : check.Covers form holds) :
    (∀ given, document = some given → form given) ↔
      ∃ value, (optional check document).value? = some value ∧ ∀ x ∈ value, holds x := by
  cases document with
  | none => simp [optional]
  | some document =>
    have hcovers := h (some document)
    simp only [Option.some.injEq, exists_eq_left'] at hcovers
    simp [optional, hcovers]

theorem value?_itemsFrom_eq_some_iff {position : Nat} {items : List Document} {values : List α} :
    (itemsFrom check position items).value? = some values ↔
      List.Forall₂ (fun item value => (check (some item)).value? = some value) items values := by
  induction items generalizing position values with
  | nil => simp [itemsFrom, eq_comm]
  | cons item items ih =>
    simp only [itemsFrom, Checked.value?_seq_eq_some_iff, Checked.value?_map_eq_some_iff,
      Checked.value?_within, List.forall₂_cons_left_iff, ih]
    constructor
    · rintro ⟨_, ⟨value, hvalue, rfl⟩, rest, hrest, rfl⟩
      exact ⟨value, rest, hvalue, hrest, rfl⟩
    · rintro ⟨value, rest, hvalue, hrest, rfl⟩
      exact ⟨_, ⟨value, hvalue, rfl⟩, rest, hrest, rfl⟩

theorem value?_listOf_eq_some_iff {values : List α} :
    (listOf check document).value? = some values ↔
      ∃ items, document = some (.list items) ∧
        List.Forall₂ (fun item value => (check (some item)).value? = some value) items values := by
  simp [listOf, value?_ofType_eq_some_iff, value?_itemsFrom_eq_some_iff, Option.bind_eq_some_iff,
    Document.list?_eq_some_iff]

theorem Reads.listOf (h : check.Reads trim write) :
    (listOf check).Reads (Document.eachItem trim) fun values => .list (values.map write) := by
  intro document values
  have hitems : ∀ items : List Document,
      List.Forall₂ (fun item value => (check (some item)).value? = some value) items values ↔
        items.map trim = values.map write := by
    intro items
    rw [← List.forall₂_eq_eq_eq, List.forall₂_map_left_iff, List.forall₂_map_right_iff]
    simp [h (some _)]
  simp only [value?_listOf_eq_some_iff, hitems, Option.map_eq_some_iff,
    Document.eachItem_eq_list_iff]
  constructor
  · rintro ⟨items, rfl, heq⟩
    exact ⟨_, rfl, items, rfl, heq⟩
  · rintro ⟨_, rfl, items, rfl, heq⟩
    exact ⟨items, rfl, heq⟩

theorem exists_forall₂_iff (h : check.Covers form holds) (items : List Document) :
    (∀ item ∈ items, form item) ↔ ∃ values,
      List.Forall₂ (fun item value => (check (some item)).value? = some value) items values ∧
        ∀ value ∈ values, holds value := by
  induction items with
  | nil => simp
  | cons item items ih =>
    have hitem := h (some item)
    simp only [Option.some.injEq, exists_eq_left'] at hitem
    rw [List.forall_mem_cons, hitem, ih]
    constructor
    · rintro ⟨⟨value, hvalue, hholds⟩, values, hvalues, hall⟩
      exact ⟨value :: values, .cons hvalue hvalues, List.forall_mem_cons.2 ⟨hholds, hall⟩⟩
    · rintro ⟨values, hvalues, hall⟩
      obtain _ | ⟨hvalue, hrest⟩ := hvalues
      obtain ⟨hholds, hall⟩ := List.forall_mem_cons.1 hall
      exact ⟨⟨_, hvalue, hholds⟩, _, hrest, hall⟩

theorem Covers.listOf (h : check.Covers form holds) :
    (listOf check).Covers (Document.IsListOf form) fun values => ∀ value ∈ values, holds value := by
  intro document
  simp only [value?_listOf_eq_some_iff, Document.IsListOf, exists_forall₂_iff h]
  constructor
  · rintro ⟨_, rfl, items, rfl, values, hvalues, hall⟩
    exact ⟨values, ⟨items, rfl, hvalues⟩, hall⟩
  · rintro ⟨values, ⟨items, rfl, hvalues⟩, hall⟩
    exact ⟨_, rfl, items, rfl, values, hvalues, hall⟩

theorem value?_object_eq_some_iff {next : Fields → Checked α} {value : α} :
    (object next document).value? = some value ↔
      ∃ fields, document = some (.object fields) ∧ (next fields).value? = some value := by
  simp [object, value?_ofType_eq_some_iff, Option.bind_eq_some_iff, Document.object?_eq_some_iff]

/-- A check of an object reads what it writes if it reads each value under its own key. -/
theorem reads_object {next : Fields → Checked α} {shape : List (String × (Document → Document))}
    {toFields : α → Fields} (hshape : (shape.map (·.1)).Nodup)
    (hwrite : ∀ value, (Document.object (toFields value)).only shape = .object (toFields value))
    (hnext : ∀ fields value, (next fields).value? = some value ↔
      ∀ entry ∈ shape, (fields.get? entry.1).map entry.2 = (toFields value).get? entry.1) :
    (object next).Reads (Document.only shape) fun value => .object (toFields value) := by
  intro document value
  have hfields : ∀ fields : Fields, (next fields).value? = some value ↔
      fields.only shape = toFields value := by
    intro fields
    rw [hnext, Fields.only_eq_iff hshape (Document.object.inj (hwrite value))]
  simp only [value?_object_eq_some_iff, hfields, Option.map_eq_some_iff]
  constructor
  · rintro ⟨fields, rfl, heq⟩
    exact ⟨_, rfl, congrArg Document.object heq⟩
  · rintro ⟨given, rfl, heq⟩
    obtain ⟨fields, rfl⟩ := Document.exists_fields_of_only_eq heq
    exact ⟨fields, rfl, Document.object.inj heq⟩

theorem covers_object {next : Fields → Checked α}
    {required allowed : List (String × (Document → Prop))}
    (hnext : ∀ fields : Fields,
      ((∀ entry ∈ required, ∃ value, fields.get? entry.1 = some value ∧ entry.2 value) ∧
        ∀ entry ∈ allowed, ∀ value, fields.get? entry.1 = some value → entry.2 value) ↔
      ∃ value, (next fields).value? = some value ∧ holds value) :
    (object next).Covers (Document.IsObject required allowed) holds := by
  intro document
  simp only [value?_object_eq_some_iff, Document.IsObject, hnext]
  constructor
  · rintro ⟨_, rfl, fields, rfl, value, hvalue, hholds⟩
    exact ⟨value, ⟨fields, rfl, hvalue⟩, hholds⟩
  · rintro ⟨value, ⟨fields, rfl, hvalue⟩, hholds⟩
    exact ⟨_, rfl, fields, rfl, value, hvalue, hholds⟩

end Check
end Scaffold
