import Scaffold.Checked
import Scaffold.Log

/-!
The configuration: the module path under which modules are put, and the least level of log
entries to print. It is read from two variables of the environment, which both have a default.
-/
namespace Scaffold

structure Config where
  modulePath : String
  /-- The least level that is printed; if it is none of the levels, nothing is. -/
  logLevel : Option Log.Level
  deriving DecidableEq, Repr

structure Environment where
  modulePath : Option Document := none
  logLevel : Option Document := none
  deriving DecidableEq, Repr

structure ConfigError where
  report : Report
  deriving DecidableEq, Repr

def ConfigError.message (error : ConfigError) : String :=
  "Invalid generator configuration. " ++
    "; ".intercalate (error.report.toList.map fun issue => issue.place ++ ": " ++ issue.message)

namespace Environment

/-- The variables by their names. A null is no value. -/
def ofFields (fields : Fields) : Environment :=
  let given? (name : String) : Option Document :=
    match fields.get? name with
    | some .null => none
    | value => value
  ⟨given? "ORMGEN_MODULE_PREFIX", given? "ORMGEN_LOG_LEVEL"⟩

end Environment

namespace Config

/-- Whether a text goes on as a module path: names with dots between them, each a capital with
letters and digits after it. `inside` says that a name has begun. -/
def isPathFrom (inside : Bool) : List Char → Bool
  | [] => inside
  | c :: rest =>
    if inside then
      if c = '.' then isPathFrom false rest else c.isAlphanum && isPathFrom true rest
    else c.isUpper && isPathFrom true rest

def isModulePath (path : String) : Bool := isPathFrom false path.toList

def standardPath : String := "App"

def checkPath : Check String := fun document =>
  (Check.anyText document).refine fun path =>
    if isModulePath path then [] else [⟨[], .badModulePath⟩]

def checkLevel : Check Log.Level :=
  Check.ofType (Cause.alternatives Log.Level.words) Document.text? fun word =>
    match Log.Level.ofWord? word with
    | some level => pure level
    | none => .refused ⟨[], .unknownWord Log.Level.words word⟩ []

def check (environment : Environment) : Checked Config :=
  (fun modulePath level => ⟨modulePath, some level⟩) <$>
    (checkPath (environment.modulePath.or (some (.text standardPath)))).within
      (.key "modulePrefix") <*>
    (checkLevel (environment.logLevel.or (some (.text Log.Level.standard.word)))).within
      (.key "logLevel")

def load (environment : Environment) : Except ConfigError Config :=
  (check environment).result.mapError ConfigError.mk

end Config
end Scaffold
