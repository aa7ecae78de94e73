import Mathlib.Data.List.Forall2
import Scaffold.Checked

/-!
What a check accepts: the values that it finds without any issue. Each way of putting checks
together has its law here, so that what a whole check accepts is read off its parts, and no later
proof looks at how issues are gathered.
-/
namespace Scaffold
namespace Checked

variable {α β : Type}

def Accepts (c : Checked α) (value : α) : Prop := c.value? = some value ∧ c.issues = []

theorem result_eq_ok_iff_accepts {c : Checked α} {value : α} :
    c.result = .ok value ↔ c.Accepts value := result_eq_ok_iff

@[simp] theorem accepts_pure {value other : α} :
    (pure value : Checked α).Accepts other ↔ value = other := by
  simp [Accepts]

@[simp] theorem not_accepts_refused {first : Issue} {rest : List Issue} {value : α} :
    ¬(refused first rest : Checked α).Accepts value := by
  simp [Accepts, value?]

theorem accepts_map {f : α → β} {c : Checked α} {value : β} :
    (f <$> c).Accepts value ↔ ∃ x, c.Accepts x ∧ f x = value := by
  simp only [Accepts, value?_map, issues_map, Option.map_eq_some_iff]
  constructor
  · rintro ⟨⟨x, hx, hf⟩, hissues⟩
    exact ⟨x, ⟨hx, hissues⟩, hf⟩
  · rintro ⟨x, ⟨hx, hissues⟩, hf⟩
    exact ⟨⟨x, hx, hf⟩, hissues⟩

theorem accepts_seq {f : Checked (α → β)} {c : Checked α} {value : β} :
    (f <*> c).Accepts value ↔ ∃ g, f.Accepts g ∧ ∃ x, c.Accepts x ∧ g x = value := by
  simp only [Accepts, value?_seq, issues_seq, Option.bind_eq_some_iff, Option.map_eq_some_iff,
    List.append_eq_nil_iff]
  constructor
  · rintro ⟨⟨g, hg, x, hx, hvalue⟩, hf, hc⟩
    exact ⟨g, ⟨hg, hf⟩, x, ⟨hx, hc⟩, hvalue⟩
  · rintro ⟨g, ⟨hg, hf⟩, x, ⟨hx, hc⟩, hvalue⟩
    exact ⟨⟨g, hg, x, hx, hvalue⟩, hf, hc⟩

@[simp] theorem accepts_within {step : Step} {c : Checked α} {value : α} :
    (c.within step).Accepts value ↔ c.Accepts value := by
  simp [Accepts]

theorem accepts_note {others : List Issue} {c : Checked α} {value : α} :
    (c.note others).Accepts value ↔ c.Accepts value ∧ others = [] := by
  simp [Accepts, and_assoc]

theorem accepts_prepend {others : List Issue} {c : Checked α} {value : α} :
    (c.prepend others).Accepts value ↔ others = [] ∧ c.Accepts value := by
  simp only [Accepts, value?_prepend, issues_prepend, List.append_eq_nil_iff]
  exact and_left_comm

theorem accepts_refine {check : α → List Issue} {c : Checked α} {value : α} :
    (c.refine check).Accepts value ↔ c.Accepts value ∧ check value = [] := by
  simp only [Accepts, value?_refine, issues_refine, List.append_eq_nil_iff]
  constructor
  · rintro ⟨hvalue, hissues, hcheck⟩
    exact ⟨⟨hvalue, hissues⟩, by simpa [hvalue] using hcheck⟩
  · rintro ⟨⟨hvalue, hissues⟩, hcheck⟩
    exact ⟨hvalue, hissues, by simp [hvalue, hcheck]⟩

end Checked

namespace Check

variable {α β : Type}

theorem accepts_ofType {expected : String} {read? : Document → Option β} {next : β → Checked α}
    {document : Option Document} {value : α} :
    (ofType expected read? next document).Accepts value ↔
      ∃ x, document.bind read? = some x ∧ (next x).Accepts value := by
  cases document with
  | none => simp [ofType]
  | some document =>
    cases h : read? document with
    | none => simp [ofType, h]
    | some x => simp [ofType, h]

theorem accepts_anyText {document : Option Document} {value : String} :
    (anyText document).Accepts value ↔ document.bind Document.text? = some value := by
  simp [anyText, accepts_ofType]

theorem accepts_name {document : Option Document} {value : String} :
    (name document).Accepts value ↔
      document.bind Document.text? = some value ∧ value ≠ "" := by
  simp only [name, Checked.accepts_refine, accepts_anyText]
  apply and_congr_right
  intro _
  split <;> simp [*]

theorem accepts_itemsFrom {check : Check α} {position : Nat} {items : List Document}
    {values : List α} :
    (itemsFrom check position items).Accepts values ↔
      List.Forall₂ (fun item value => (check (some item)).Accepts value) items values := by
  induction items generalizing position values with
  | nil => simp [itemsFrom, eq_comm]
  | cons item items ih =>
    simp only [itemsFrom, Checked.accepts_seq, Checked.accepts_map, Checked.accepts_within,
      List.forall₂_cons_left_iff, ih]
    constructor
    · rintro ⟨_, ⟨value, hvalue, rfl⟩, rest, hrest, rfl⟩
      exact ⟨value, rest, hvalue, hrest, rfl⟩
    · rintro ⟨value, rest, hvalue, hrest, rfl⟩
      exact ⟨_, ⟨value, hvalue, rfl⟩, rest, hrest, rfl⟩

theorem accepts_listOf {check : Check α} {document : Option Document} {values : List α} :
    (listOf check document).Accepts values ↔
      ∃ items, document.bind Document.list? = some items ∧
        List.Forall₂ (fun item value => (check (some item)).Accepts value) items values := by
  simp only [listOf, accepts_ofType, accepts_itemsFrom]

theorem accepts_object {check : Fields → Checked α} {document : Option Document} {value : α} :
    (object check document).Accepts value ↔
      ∃ fields, document.bind Document.object? = some fields ∧ (check fields).Accepts value := by
  simp only [object, accepts_ofType]

end Check

@[simp] theorem Fields.accepts_check {α : Type} {fields : Fields} {key : String} {check : Check α}
    {value : α} :
    (fields.check key check).Accepts value ↔ (check (fields.get? key)).Accepts value := by
  simp [Fields.check]

end Scaffold
