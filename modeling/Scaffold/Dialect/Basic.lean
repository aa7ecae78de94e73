import Scaffold.Declaration.Basic

/-!
Dialects: the keywords and the punctuation in which declarations and modules are written.
-/
namespace Scaffold

/-- A name for an option. A dialect may also list a name that no option has. -/
inductive OptionKey where
  | values
  | key
  | referenced
  | joinTable
  | joinKeys
  | other (word : String)
  deriving DecidableEq, Repr

namespace OptionKey

def word : OptionKey → String
  | values => "values"
  | key => "fk"
  | referenced => "ref"
  | joinTable => "joinThrough"
  | joinKeys => "joinKeys"
  | other word => word

def ofWord (word : String) : OptionKey :=
  match [values, key, referenced, joinTable, joinKeys].find? fun option => option.word == word with
  | some option => option
  | none => other word

end OptionKey

structure ModuleParts where
  moduleName : String
  table : String
  lines : List String
  deriving DecidableEq, Repr

structure Dialect where
  name : String
  keyword : Kind → String
  optionOrder : Kind → List OptionKey
  values : List String → String
  key : String → String
  referenced : String → String
  joinTable : String → String
  joinKeys : String × String → String × String → String
  declarationName : String → String
  fieldType : String → String
  moduleText : ModuleParts → String

namespace Dialect

/-- An option as it is written, if the declaration has it. Join keys are written only if they are
two pairs. -/
def option? (dialect : Dialect) (options : Options) : OptionKey → Option String
  | .values => options.values.map dialect.values
  | .key => options.key.map dialect.key
  | .referenced => options.referenced.map dialect.referenced
  | .joinTable => options.joinTable.map dialect.joinTable
  | .joinKeys =>
    (options.joinKeys.bind JoinKeys.pairs?).map fun (first, second) =>
      dialect.joinKeys first second
  | .other _ => none

theorem option?_joinKeys_eq_some_iff {dialect : Dialect} {options : Options} {text : String} :
    dialect.option? options .joinKeys = some text ↔ ∃ first second,
      options.joinKeys = some (.ofPairs first second) ∧ text = dialect.joinKeys first second := by
  simp only [option?, Option.map_eq_some_iff, Option.bind_eq_some_iff, Prod.exists,
    JoinKeys.pairs?_eq_some_iff]
  constructor
  · rintro ⟨_, _, _, _, ⟨_, hkeys, rfl⟩, rfl⟩
    exact ⟨_, _, _, _, hkeys, rfl⟩
  · rintro ⟨_, _, _, _, hkeys, rfl⟩
    exact ⟨_, _, _, _, ⟨_, hkeys, rfl⟩, rfl⟩

def withKeywords (dialect : Dialect) (keyword? : Kind → Option String) : Dialect :=
  { dialect with keyword := fun kind => (keyword? kind).getD (dialect.keyword kind) }

def withOptionOrder (dialect : Dialect) (order? : Kind → Option (List OptionKey)) : Dialect :=
  { dialect with optionOrder := fun kind => (order? kind).getD (dialect.optionOrder kind) }

end Dialect
end Scaffold
