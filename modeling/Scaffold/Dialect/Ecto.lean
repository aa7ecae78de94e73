import Scaffold.Dialect.Basic
import Scaffold.Text.Quoted

/-!
The default dialect: schema modules of Ecto.
-/
namespace Scaffold
namespace Dialect
namespace Ecto

def isAtomStart (c : Char) : Bool := c.isAlpha || c == '_'

def isAtomChar (c : Char) : Bool := c.isAlphanum || c == '_'

/-- The end of a bare atom: letters, digits and underscores, and at the very end a mark. -/
def isAtomEnd : List Char → Bool
  | [] => true
  | [c] => isAtomChar c || c == '?' || c == '!'
  | c :: rest => isAtomChar c && isAtomEnd rest

def isBareAtom : List Char → Bool
  | [] => false
  | c :: rest => isAtomStart c && isAtomEnd rest

def atom (text : String) : String :=
  if isBareAtom text.toList then ":" ++ text else ":" ++ Text.quote text

/-- Types of modules are written as they are, others as atoms. -/
def fieldType (type : String) : String :=
  match type.toList with
  | [] => atom type
  | c :: _ => if c.isUpper then type else atom type

/-- Each column as it is, without its table. -/
def joinKeys (first second : String × String) : String :=
  "join_keys: [" ++ first.1 ++ ": :id, " ++ second.1 ++ ": :id]"

def keyword : Kind → String
  | .field => "field"
  | .belongsTo => "belongs_to"
  | .hasMany => "has_many"
  | .hasOne => "has_one"
  | .manyToMany => "many_to_many"

/-- A many-to-many association never writes the column of its key. -/
def optionOrder : Kind → List OptionKey
  | .field => [.values]
  | .belongsTo | .hasMany | .hasOne => [.key, .referenced]
  | .manyToMany => [.joinTable, .joinKeys]

def moduleLines (parts : ModuleParts) : List String :=
  ["defmodule " ++ parts.moduleName ++ " do", "  use Ecto.Schema", "",
    "  schema " ++ Text.quote parts.table ++ " do"] ++
  parts.lines.map ("    " ++ ·) ++ ["  end", "end", ""]

end Ecto

def ecto : Dialect where
  name := "ecto"
  keyword := Ecto.keyword
  optionOrder := Ecto.optionOrder
  values values := "values: [" ++ ", ".intercalate (values.map Ecto.atom) ++ "]"
  key column := "foreign_key: " ++ Ecto.atom column
  referenced column := "references: " ++ Ecto.atom column
  joinTable table := "join_through: " ++ Text.quote table
  joinKeys := Ecto.joinKeys
  declarationName := Ecto.atom
  fieldType := Ecto.fieldType
  moduleText parts := "\n".intercalate (Ecto.moduleLines parts)

end Dialect
end Scaffold
