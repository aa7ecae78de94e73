import Scaffold.Proofs.Checked.Reading

/-!
What a check blames in a value that it finds. The value decides it: its parts are blamed one after
the other, each with the way that leads to it.
-/
namespace Scaffold

namespace Issue

def under (key : String) (issues : List Issue) : List Issue := issues.map (·.within (.key key))

def ofItemsFrom {α : Type} (position : Nat) (faults : α → List Issue) (items : List α) :
    List Issue :=
  (items.zipIdx position).flatMap fun (item, position) =>
    (faults item).map (·.within (.index position))

def ofItems {α : Type} (faults : α → List Issue) (items : List α) : List Issue :=
  ofItemsFrom 0 faults items

def ofName (text : String) : List Issue := if text = "" then [⟨[], .emptyText⟩] else []

variable {α : Type}

@[simp] theorem under_nil (key : String) : under key [] = [] := rfl

@[simp] theorem under_eq_nil_iff {key : String} {issues : List Issue} :
    under key issues = [] ↔ issues = [] :=
  List.map_eq_nil_iff

theorem under_append (key : String) (issues others : List Issue) :
    under key (issues ++ others) = under key issues ++ under key others :=
  List.map_append

theorem ofItemsFrom_cons (position : Nat) (faults : α → List Issue) (item : α) (items : List α) :
    ofItemsFrom position faults (item :: items) =
      (faults item).map (·.within (.index position)) ++
        ofItemsFrom (position + 1) faults items := by
  rw [ofItemsFrom, List.zipIdx_cons, List.flatMap_cons, ofItemsFrom]

theorem ofItemsFrom_eq_nil_iff {position : Nat} {faults : α → List Issue} {items : List α} :
    ofItemsFrom position faults items = [] ↔ ∀ item ∈ items, faults item = [] := by
  induction items generalizing position with
  | nil => simp [ofItemsFrom]
  | cons item items ih =>
    rw [ofItemsFrom_cons, List.append_eq_nil_iff, List.map_eq_nil_iff, ih, List.forall_mem_cons]

theorem ofName_eq_nil_iff {text : String} : ofName text = [] ↔ text ≠ "" := by
  simp [ofName]

end Issue

namespace Check

variable {α : Type} {check : Check α} {faults : α → List Issue}

/-- The issues beside a value that is found are known from the value. -/
def Blames (check : Check α) (faults : α → List Issue) : Prop :=
  ∀ document value, (check document).value? = some value → (check document).issues = faults value

theorem blames_ofType {expected : String} {read? : Document → Option α} :
    (ofType expected read? pure).Blames fun _ => [] := by
  intro document value h
  obtain ⟨x, hx, -⟩ := value?_ofType_eq_some_iff.1 h
  obtain ⟨given, rfl, hread⟩ := Option.bind_eq_some_iff.1 hx
  simp [ofType, hread]

theorem Blames.refine (h : check.Blames faults) (more : α → List Issue) :
    Blames (fun document => (check document).refine more)
      fun value => faults value ++ more value := by
  intro document value hvalue
  rw [Checked.value?_refine] at hvalue
  rw [Checked.issues_refine, hvalue, h document value hvalue]
  rfl

theorem blames_name : name.Blames Issue.ofName := blames_ofType.refine _

theorem Blames.optional (h : check.Blames fun _ => []) : (optional check).Blames fun _ => [] := by
  intro document value hvalue
  cases document with
  | none => rfl
  | some document =>
    obtain ⟨x, hx, -⟩ := Checked.value?_map_eq_some_iff.1 hvalue
    exact (Checked.issues_map ..).trans (h _ x hx)

theorem Blames.itemsFrom (h : check.Blames faults) {position : Nat} {items : List Document}
    {values : List α} (hvalues : (itemsFrom check position items).value? = some values) :
    (itemsFrom check position items).issues = Issue.ofItemsFrom position faults values := by
  induction items generalizing position values with
  | nil =>
    obtain rfl := Option.some.inj hvalues
    rfl
  | cons item items ih =>
    rw [Check.itemsFrom, Checked.value?_seq_eq_some_iff] at hvalues
    obtain ⟨_, hfirst, rest, hrest, rfl⟩ := hvalues
    obtain ⟨value, hvalue, rfl⟩ := Checked.value?_map_eq_some_iff.1 hfirst
    rw [Checked.value?_within] at hvalue
    rw [Check.itemsFrom, Checked.issues_seq, Checked.issues_map, Checked.issues_within,
      h _ value hvalue, ih hrest, Issue.ofItemsFrom_cons]

theorem Blames.listOf (h : check.Blames faults) : (listOf check).Blames (Issue.ofItems faults) := by
  intro document values hvalues
  obtain ⟨items, hitems, hfound⟩ := value?_ofType_eq_some_iff.1 hvalues
  obtain ⟨given, rfl, hlist⟩ := Option.bind_eq_some_iff.1 hitems
  rw [Issue.ofItems, ← h.itemsFrom hfound]
  simp [Check.listOf, ofType, hlist]

theorem blames_texts : (listOf anyText).Blames fun _ => [] := by
  intro document values hvalues
  have htext : anyText.Blames fun _ => [] := blames_ofType
  rw [htext.listOf document values hvalues]
  exact Issue.ofItemsFrom_eq_nil_iff.2 fun _ _ => rfl

theorem blames_object {next : Fields → Checked α}
    (hnext : ∀ fields value, (next fields).value? = some value →
      (next fields).issues = faults value) : (object next).Blames faults := by
  intro document value hvalue
  obtain ⟨fields, rfl, hfound⟩ := value?_object_eq_some_iff.1 hvalue
  exact hnext fields value hfound

theorem Blames.under (h : check.Blames faults) {fields : Fields} {key : String} {value : α}
    (hvalue : (check (fields.get? key)).value? = some value) :
    (fields.check key check).issues = Issue.under key (faults value) := by
  rw [Fields.check, Checked.issues_within, h _ value hvalue, Issue.under]

end Check
end Scaffold
