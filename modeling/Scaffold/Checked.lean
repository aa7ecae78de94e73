import Scaffold.Document.Basic
import Scaffold.Issue

/-!
Checks read a typed value from a document and list what is wrong in it. A check that cannot make
a value refuses, and so does every check that needs the value; but a whole is checked in all its
parts, so that no issue of another part is missed. A check that is not content with a value it
has made still gives the value, and later checks of the value are made.
-/
namespace Scaffold

inductive Checked (α : Type) where
  | found (value : α) (issues : List Issue)
  | refused (first : Issue) (rest : List Issue)
  deriving Repr

namespace Checked

variable {α β : Type}

def issues : Checked α → List Issue
  | found _ issues => issues
  | refused first rest => first :: rest

def value? : Checked α → Option α
  | found value _ => some value
  | refused _ _ => none

/-- The value if nothing is wrong, else all issues. -/
def result : Checked α → Except Report α
  | found value [] => .ok value
  | found _ (first :: rest) => .error ⟨first, rest⟩
  | refused first rest => .error ⟨first, rest⟩

def map (f : α → β) : Checked α → Checked β
  | found value issues => found (f value) issues
  | refused first rest => refused first rest

/-- Two parts of a whole: the issues of both count. -/
def seq : Checked (α → β) → Checked α → Checked β
  | found f issues, found value others => found (f value) (issues ++ others)
  | found _ [], refused first rest => refused first rest
  | found _ (issue :: issues), refused first rest => refused issue (issues ++ first :: rest)
  | refused first rest, part => refused first (rest ++ part.issues)

instance : Applicative Checked where
  map := map
  pure value := found value []
  seq f x := seq f (x ())

/-- Adds issues that do not depend on the value. -/
def note (others : List Issue) : Checked α → Checked α
  | found value issues => found value (issues ++ others)
  | refused first rest => refused first (rest ++ others)

def prepend (others : List Issue) : Checked α → Checked α
  | found value issues => found value (others ++ issues)
  | refused first rest =>
    match others with
    | [] => refused first rest
    | other :: others => refused other (others ++ first :: rest)

/-- Adds the issues of a value, if there is one. -/
def refine (check : α → List Issue) : Checked α → Checked α
  | found value issues => found value (issues ++ check value)
  | refused first rest => refused first rest

def within (step : Step) : Checked α → Checked α
  | found value issues => found value (issues.map (·.within step))
  | refused first rest => refused (first.within step) (rest.map (·.within step))

@[simp] theorem issues_pure (value : α) : (pure value : Checked α).issues = [] := rfl
@[simp] theorem value?_pure (value : α) : (pure value : Checked α).value? = some value := rfl

@[simp] theorem issues_map (f : α → β) (c : Checked α) : (f <$> c).issues = c.issues := by
  cases c <;> rfl
@[simp] theorem value?_map (f : α → β) (c : Checked α) : (f <$> c).value? = c.value?.map f := by
  cases c <;> rfl

@[simp] theorem issues_seq (f : Checked (α → β)) (c : Checked α) :
    (f <*> c).issues = f.issues ++ c.issues := by
  obtain _ | _ := f
  · next issues => obtain _ | _ := c <;> cases issues <;> simp [Seq.seq, seq, Checked.issues]
  · simp [Seq.seq, seq, Checked.issues]
@[simp] theorem value?_seq (f : Checked (α → β)) (c : Checked α) :
    (f <*> c).value? = f.value?.bind fun g => c.value?.map g := by
  obtain _ | _ := f
  · next issues => obtain _ | _ := c <;> cases issues <;> simp [Seq.seq, seq, Checked.value?]
  · simp [Seq.seq, seq, Checked.value?]

@[simp] theorem issues_note (others : List Issue) (c : Checked α) :
    (c.note others).issues = c.issues ++ others := by
  cases c <;> simp [note, Checked.issues]
@[simp] theorem value?_note (others : List Issue) (c : Checked α) :
    (c.note others).value? = c.value? := by
  cases c <;> rfl

@[simp] theorem issues_prepend (others : List Issue) (c : Checked α) :
    (c.prepend others).issues = others ++ c.issues := by
  cases c <;> cases others <;> simp [prepend, Checked.issues]
@[simp] theorem value?_prepend (others : List Issue) (c : Checked α) :
    (c.prepend others).value? = c.value? := by
  cases c <;> cases others <;> rfl

@[simp] theorem issues_refine (check : α → List Issue) (c : Checked α) :
    (c.refine check).issues = c.issues ++ (c.value?.map check).getD [] := by
  cases c <;> simp [refine, Checked.issues, Checked.value?]
@[simp] theorem value?_refine (check : α → List Issue) (c : Checked α) :
    (c.refine check).value? = c.value? := by
  cases c <;> rfl

@[simp] theorem issues_within (step : Step) (c : Checked α) :
    (c.within step).issues = c.issues.map (·.within step) := by
  cases c <;> simp [within, Checked.issues]
@[simp] theorem value?_within (step : Step) (c : Checked α) : (c.within step).value? = c.value? := by
  cases c <;> rfl

theorem result_eq_ok_iff {c : Checked α} {value : α} :
    c.result = .ok value ↔ c.value? = some value ∧ c.issues = [] := by
  obtain ⟨_, _ | _⟩ | _ := c <;> simp [result, value?, Checked.issues]

theorem result_eq_error_iff {c : Checked α} {report : Report} :
    c.result = .error report ↔ c.issues = report.toList := by
  obtain ⟨_, _ | _⟩ | _ := c <;> obtain ⟨_, _⟩ := report <;>
    simp [result, Checked.issues, Report.toList]

end Checked

/-- A check of a value that may be absent. -/
abbrev Check (α : Type) := Option Document → Checked α

namespace Check

variable {α : Type}

def ofType {β : Type} (expected : String) (read? : Document → Option β) (next : β → Checked α) :
    Check α
  | none => .refused ⟨[], .absent⟩ []
  | some document =>
    match read? document with
    | some value => next value
    | none => .refused ⟨[], .wrongType expected document.typeName⟩ []

def anyText : Check String := ofType "string" Document.text? pure

def name : Check String := fun document =>
  (anyText document).refine fun value => if value = "" then [⟨[], .emptyText⟩] else []

def flag : Check Bool := ofType "boolean" Document.bool? pure

/-- A value that may be absent, but not null. -/
def optional (check : Check α) : Check (Option α)
  | none => pure none
  | some document => some <$> check (some document)

def itemsFrom (check : Check α) : Nat → List Document → Checked (List α)
  | _, [] => pure []
  | position, item :: rest =>
    List.cons <$> (check (some item)).within (.index position) <*>
      itemsFrom check (position + 1) rest

def listOf (check : Check α) : Check (List α) := ofType "array" Document.list? (itemsFrom check 0)

def object (check : Fields → Checked α) : Check α := ofType "object" Document.object? check

end Check

namespace Fields

def check {α : Type} (fields : Fields) (key : String) (check : Check α) : Checked α :=
  (check (fields.get? key)).within (.key key)

def otherKeys (fields : Fields) (known : List String) : List Issue :=
  match fields.keys.filter fun key => !known.contains key with
  | [] => []
  | keys => [⟨[], .unknownKeys keys⟩]

end Fields
end Scaffold
