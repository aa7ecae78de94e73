import Scaffold.Dialect.Basic
import Scaffold.Entity
import Scaffold.Log

/-!
Writing declarations and entities in a dialect. Two sorts of fields are left out and have the
empty line: the primary key, which the target adds itself, and fields of a vector type, which are
reported. What a module is given as its logger is handed down to its declarations, and a declaration
without one has a logger of its own.
-/
namespace Scaffold

/-- A declaration to write, or one of a kind that is not known. -/
inductive Record where
  | known (declaration : Declaration)
  | unknownKind (kind name : String)
  deriving DecidableEq, Repr

inductive RenderingError where
  | contract (error : ContractError)
  /-- The join keys of a declaration are no two pairs. -/
  | joinKeys (name : String)
  deriving DecidableEq, Repr

namespace Rendering

def primaryKey : String := "id"

def isPrimaryKey (declaration : Declaration) : Bool :=
  declaration.kind == .field && declaration.name == primaryKey

def isVectorField (declaration : Declaration) : Bool :=
  declaration.kind == .field && declaration.name != primaryKey &&
    Naming.isUnsupported declaration.subject

def isLeftOut (declaration : Declaration) : Bool :=
  isPrimaryKey declaration || isVectorField declaration

def subject (dialect : Dialect) (declaration : Declaration) : String :=
  if declaration.kind = .field then dialect.fieldType declaration.subject else declaration.subject

def options (dialect : Dialect) (declaration : Declaration) : List String :=
  (dialect.optionOrder declaration.kind).filterMap (dialect.option? declaration.options)

/-- Join keys that a dialect lists must be of the form that it writes. -/
def isWritable (dialect : Dialect) (declaration : Declaration) : Bool :=
  !(dialect.optionOrder declaration.kind).contains .joinKeys ||
    declaration.options.joinKeys.all fun keys => keys.pairs?.isSome

/-- A declaration on one line: keyword and name, subject, options. -/
def write (dialect : Dialect) (declaration : Declaration) : String :=
  ", ".intercalate
    ((dialect.keyword declaration.kind ++ " " ++ dialect.declarationName declaration.name) ::
      subject dialect declaration :: options dialect declaration)

def vectorWarning (declaration : Declaration) : Log.Entry where
  level := .warn
  message := "Field \"" ++ declaration.name ++ "\" has unsupported type \"" ++
    declaration.subject ++ "\" and was left out. Add it by hand with a custom type."
  data := [("field", .text declaration.name), ("type", .text declaration.subject)]

/-- The logger of a declaration that is given none. -/
def defaultLogger : Log.Logger := .console "declaration-renderer" (some .standard)

/-- The line of a declaration, empty if it is left out. -/
def line (dialect : Dialect) (logger : Option Log.Logger) :
    Record → Logged RenderingError String
  | .unknownKind kind name => .ofExcept (.error (.contract (.unknownKind kind name)))
  | .known declaration =>
    if isPrimaryKey declaration then pure ""
    else if isVectorField declaration then do
      Logged.tell (logger.getD defaultLogger) (vectorWarning declaration)
      return ""
    else if isWritable dialect declaration then pure (write dialect declaration)
    else .ofExcept (.error (.joinKeys declaration.name))

/-- The lines of declarations, up to the first that has none. -/
def lines (dialect : Dialect) (logger : Option Log.Logger) :
    List Record → Logged RenderingError (List String)
  | [] => pure []
  | record :: rest => do
    let line ← line dialect logger record
    let others ← lines dialect logger rest
    return line :: others

def moduleText (dialect : Dialect) (logger : Option Log.Logger) (moduleName table : String)
    (records : List Record) : Logged RenderingError String := do
  let lines ← lines dialect logger records
  return dialect.moduleText ⟨moduleName, table, lines.filter (· ≠ "")⟩

def entityText (dialect : Dialect) (logger : Option Log.Logger) (entity : Entity) :
    Logged RenderingError String :=
  moduleText dialect logger entity.moduleName entity.table (entity.declarations.map .known)

end Rendering
end Scaffold
