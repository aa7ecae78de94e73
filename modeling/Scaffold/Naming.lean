import Scaffold.Inflection.Basic

/-!
Names of columns, tables, associations and modules. A name is made of words with underscores
between them, and only its last word is inflected.
-/
namespace Scaffold
namespace Naming

def keySuffix : String := "_id"

def separator : String := "_"

def dropEnding (ending text : List Char) : List Char :=
  if ending.isSuffixOf text then text.take (text.length - ending.length) else text

def stripKeySuffix (column : String) : String :=
  String.ofList (dropEnding keySuffix.toList column.toList)

/-- The words of a name, empty ones included. -/
def words : List Char → List (List Char)
  | [] => [[]]
  | c :: cs =>
    if c = '_' then [] :: words cs
    else
      match words cs with
      | [] => [[c]]
      | word :: rest => (c :: word) :: rest

/-- The module that a table is mapped to: the words of its singular, each with a capital. -/
def moduleName (table : String) : String :=
  String.ofList ((words (Inflection.singular table).toList).flatMap Text.capitalize)

/-- The column that by default refers to a table or an association. -/
def defaultKey (name : String) : String := Inflection.singular name ++ keySuffix

/-- Whether a text is a name or ends with it as a whole word. -/
def endsWithName (text name : String) : Bool :=
  text == name || (separator ++ name).toList.isSuffixOf text.toList

/-- The name of an association that a column or a phrase tells from others: the plural of the
phrase, with the base name added unless the phrase already ends with its singular. -/
def associationName (phrase base : String) : String :=
  let stem := stripKeySuffix phrase
  Inflection.plural
    (if endsWithName stem (Inflection.singular base) then stem else stem ++ separator ++ base)

def typeMap : List (String × String) :=
  [("text", "string"), ("citext", "string"), ("timestamptz", "utc_datetime"),
   ("uuid", "Ecto.UUID"), ("jsonb", "EctoJSON"), ("bool", "boolean"), ("int4", "integer")]

/-- The type of the field for a column type. A type without an entry is kept. -/
def fieldType (columnType : String) : String := (typeMap.lookup columnType).getD columnType

def isUnsupported (type : String) : Bool := "vector".toList.isSuffixOf type.toList

end Naming
end Scaffold
