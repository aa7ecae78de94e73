import Scaffold.Document.Equality

/-!
Declarations: the fields and associations of an entity, as they are written in its module.
-/
namespace Scaffold

inductive Kind where
  | field
  | belongsTo
  | hasMany
  | hasOne
  | manyToMany
  deriving DecidableEq, Repr

namespace Kind

def all : List Kind := [field, belongsTo, hasMany, hasOne, manyToMany]

def word : Kind → String
  | field => "field"
  | belongsTo => "belongsTo"
  | hasMany => "hasMany"
  | hasOne => "hasOne"
  | manyToMany => "manyToMany"

def words : List String := all.map word

def ofWord? (word : String) : Option Kind := all.find? fun kind => kind.word == word

theorem mem_all (kind : Kind) : kind ∈ all := by cases kind <;> simp [all]

@[simp] theorem ofWord?_word (kind : Kind) : ofWord? kind.word = some kind := by
  cases kind <;> decide

/-- What a declaration of a kind says after its name: the type of a field, or the module at the
other end of an association. -/
def subjectWord : Kind → String
  | field => "type"
  | _ => "target"

end Kind

/-- The keys of a join table, each a column and the table it refers to. They may come from
anywhere, so that the form of two pairs of texts is not taken for granted. -/
abbrev JoinKeys := List (List Document)

structure Options where
  values : Option (List String) := none
  /-- The column that holds the key, if it is not the default one. -/
  key : Option String := none
  /-- The referenced column, if it is not the default one. -/
  referenced : Option String := none
  joinTable : Option String := none
  joinKeys : Option JoinKeys := none
  deriving DecidableEq, Repr

structure Declaration where
  kind : Kind
  name : String
  subject : String
  options : Options
  deriving DecidableEq, Repr

namespace JoinKeys

def ofPairs (first second : String × String) : JoinKeys :=
  [[.text first.1, .text first.2], [.text second.1, .text second.2]]

def pairs? : JoinKeys → Option ((String × String) × (String × String))
  | [[.text column, .text table], [.text column', .text table']] =>
    some ((column, table), (column', table'))
  | _ => none

@[simp] theorem pairs?_ofPairs (first second : String × String) :
    pairs? (ofPairs first second) = some (first, second) := rfl

theorem pairs?_eq_some_iff {keys : JoinKeys} {first second : String × String} :
    keys.pairs? = some (first, second) ↔ keys = ofPairs first second := by
  constructor
  · intro h
    unfold pairs? at h
    split at h
    · cases h
      rfl
    · cases h
  · rintro rfl
    rfl

def toDocument (keys : JoinKeys) : Document := .list (keys.map .list)

end JoinKeys

def Options.toDocument (options : Options) : Document :=
  .object (
    (options.values.map fun values => ("values", Document.texts values)).toList ++
    (options.key.map fun column => ("fk", Document.text column)).toList ++
    (options.referenced.map fun column => ("ref", Document.text column)).toList ++
    (options.joinTable.map fun table => ("joinThrough", Document.text table)).toList ++
    (options.joinKeys.map fun keys => ("joinKeys", JoinKeys.toDocument keys)).toList)

namespace Declaration

def isAssociation (declaration : Declaration) : Bool := declaration.kind != .field

/-- The keys of a join table are two pairs of a column and a table. -/
def Paired (declaration : Declaration) : Prop :=
  ∀ keys, declaration.options.joinKeys = some keys →
    ∃ first second, keys = JoinKeys.ofPairs first second

def rename (declaration : Declaration) (name : String) : Declaration := { declaration with name }

@[simp] theorem rename_kind (declaration : Declaration) (name : String) :
    (declaration.rename name).kind = declaration.kind := rfl
@[simp] theorem rename_name (declaration : Declaration) (name : String) :
    (declaration.rename name).name = name := rfl
@[simp] theorem rename_subject (declaration : Declaration) (name : String) :
    (declaration.rename name).subject = declaration.subject := rfl
@[simp] theorem rename_options (declaration : Declaration) (name : String) :
    (declaration.rename name).options = declaration.options := rfl
@[simp] theorem rename_self (declaration : Declaration) :
    declaration.rename declaration.name = declaration := rfl
@[simp] theorem rename_rename (declaration : Declaration) (first second : String) :
    (declaration.rename first).rename second = declaration.rename second := rfl

def toDocument (declaration : Declaration) : Document :=
  .object [("kind", .text declaration.kind.word), ("name", .text declaration.name),
    (declaration.kind.subjectWord, .text declaration.subject),
    ("options", declaration.options.toDocument)]

end Declaration
end Scaffold
