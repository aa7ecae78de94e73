import Scaffold.Dialect.Basic
import Scaffold.Document.Printer

/-!
A dialect that shows plainly what a dialect is given to write.
-/
namespace Scaffold
namespace Dialect
namespace Echo

def optionText (option : OptionKey) (value : Document) : String :=
  option.word ++ "=" ++ value.print

def optionOrder : Kind → List OptionKey
  | .field => [.values]
  | .belongsTo => [.referenced, .key]
  | .hasMany => [.referenced]
  | .hasOne => []
  | .manyToMany => [.joinKeys, .key, .joinTable]

def moduleLines (parts : ModuleParts) : List String :=
  (parts.moduleName ++ "|" ++ parts.table ++ "|" ++ parts.lines.length.repr) :: parts.lines

end Echo

def echo : Dialect where
  name := "echo"
  keyword := Kind.word
  optionOrder := Echo.optionOrder
  values values := Echo.optionText .values (Document.texts values)
  key column := Echo.optionText .key (.text column)
  referenced column := Echo.optionText .referenced (.text column)
  joinTable table := Echo.optionText .joinTable (.text table)
  joinKeys first second := Echo.optionText .joinKeys (JoinKeys.ofPairs first second).toDocument
  declarationName name := "<" ++ name ++ ">"
  fieldType type := "(" ++ type ++ ")"
  moduleText parts := "\n".intercalate (Echo.moduleLines parts)

end Dialect
end Scaffold
