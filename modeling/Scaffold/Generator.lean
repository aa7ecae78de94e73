import Scaffold.Config
import Scaffold.Dialect.Ecto
import Scaffold.Rendering

/-!
The whole run: a document is read as a schema, the schema gives entities, and each entity is
written as a module. What a caller does not give is taken from the configuration.
-/
namespace Scaffold

structure SourceModule where
  table : String
  moduleName : String
  source : String
  deriving DecidableEq, Repr

inductive GenerationError where
  | config (error : ConfigError)
  | build (error : BuildError)
  | rendering (error : RenderingError)
  deriving DecidableEq, Repr

namespace Generator

/-- What a caller may give beside the document. -/
structure Settings where
  modulePath : Option String := none
  config : Option Config := none
  logger : Option Log.Logger := none
  dialect : Dialect := Dialect.ecto

/-- What a run prints or records, and its modules or why there are none. -/
abbrev Run := Logged GenerationError (List SourceModule)

def startMessage (entity : Entity) : Log.Entry where
  level := .debug
  message := "Rendering module"
  data := [("table", .text entity.table), ("module", .text entity.moduleName),
    ("declarations", .nat entity.declarations.length)]

def endMessage (dialect : Dialect) (count : Nat) : Log.Entry where
  level := .info
  message := "Generated " ++ count.repr ++ " module" ++ (if count = 1 then "" else "s")
  data := [("syntax", .text dialect.name)]

def writeEntity (dialect : Dialect) (logger : Log.Logger) (entity : Entity) :
    Logged RenderingError SourceModule := do
  Logged.tell logger (startMessage entity)
  let source ← Rendering.entityText dialect (some logger) entity
  return ⟨entity.table, entity.moduleName, source⟩

def writeAll (dialect : Dialect) (logger : Log.Logger) :
    List Entity → Logged RenderingError (List SourceModule)
  | [] => pure []
  | entity :: rest => do
    let written ← writeEntity dialect logger entity
    let others ← writeAll dialect logger rest
    return written :: others

def modules (dialect : Dialect) (logger : Log.Logger) (path : String) (document : Document) :
    Run := do
  let entities ← Logged.ofExcept ((Entity.ofDocument (some path) document).mapError .build)
  let written ← (writeAll dialect logger entities).mapError .rendering
  Logged.tell logger (endMessage dialect written.length)
  return written

def runWith (config : Config) (settings : Settings) (document : Document) : Run :=
  modules settings.dialect (settings.logger.getD (.console "generator" config.logLevel))
    (settings.modulePath.getD config.modulePath) document

/-- A run. The environment is looked at only if no configuration is given, and before the
document is. -/
def run (settings : Settings) (environment : Environment) (document : Document) : Run :=
  match settings.config with
  | some config => runWith config settings document
  | none =>
    match Config.load environment with
    | .error error => ⟨[], .error (.config error)⟩
    | .ok config => runWith config settings document

end Generator
end Scaffold
