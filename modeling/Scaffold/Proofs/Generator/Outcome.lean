import Scaffold.Generator
import Scaffold.Proofs.Entity.Origins
import Scaffold.Proofs.Rendering.Lines

/-!
How a run ends. What a schema gives is never at fault: its entities can be derived, the other key of
a join table is where it is looked for, and every declaration can be written. So a run with a
configuration fails exactly if its document describes no schema, and then before it has logged
anything; `run_fails_iff` says so.
-/
namespace Scaffold

theorem Schema.validate_of_ok {document : Document} {schema : Schema}
    (h : (Schema.check (some document)).result = .ok schema) :
    Schema.validate document = .ok schema := by
  rw [Schema.validate, h]

theorem Schema.validate_of_error {document : Document} {report : Report}
    (h : (Schema.check (some document)).result = .error report) :
    Schema.validate document = .error (.invalid report) := by
  rw [Schema.validate, h]

namespace Generator

variable {path : String} {dialect : Dialect} {logger : Log.Logger} {document : Document}
  {schema : Schema}

def written (dialect : Dialect) (entity : Entity) : SourceModule where
  table := entity.table
  moduleName := entity.moduleName
  source := dialect.moduleText (Rendering.parts dialect entity)

def entityEntries (entity : Entity) : List Log.Entry :=
  startMessage entity :: Rendering.warnings entity.declarations

theorem writeEntity_eq {entity : Entity}
    (hwritable : ∀ declaration ∈ entity.declarations, Rendering.Writable dialect declaration)
    (logger : Log.Logger) :
    writeEntity dialect logger entity =
      ⟨logger.outputs (entityEntries entity), .ok (written dialect entity)⟩ := by
  have htell : (Logged.tell logger (startMessage entity) : Logged RenderingError Unit).outcome =
      .ok () := rfl
  rw [writeEntity, Logged.bind_of_ok htell, Logged.bind_pure_eq,
    Rendering.entityText_eq hwritable, entityEntries, ← List.singleton_append,
    Log.Logger.outputs_append]
  rfl

/-- By induction on the entities: each hands the logger down, and it gets their entries in turn. -/
theorem writeAll_eq {entities : List Entity}
    (hwritable : ∀ entity ∈ entities, ∀ declaration ∈ entity.declarations,
      Rendering.Writable dialect declaration)
    (logger : Log.Logger) :
    writeAll dialect logger entities =
      ⟨logger.outputs (entities.flatMap entityEntries),
        .ok (entities.map (written dialect))⟩ := by
  induction entities with
  | nil => rfl
  | cons entity entities ih =>
    rw [List.forall_mem_cons] at hwritable
    have hhead := writeEntity_eq hwritable.1 logger
    rw [writeAll, Logged.bind_of_ok (congrArg Logged.outcome hhead), Logged.bind_pure_eq, hhead,
      ih hwritable.2, List.flatMap_cons, Log.Logger.outputs_append]
    rfl

def entities (path : Option String) (schema : Schema) : List Entity :=
  (schema.tables.filter fun table => !table.isJoin).map (Entity.told path schema)

theorem writable_of_mem_entities (path : Option String) (schema : Schema) (dialect : Dialect) :
    ∀ entity ∈ entities path schema, ∀ declaration ∈ entity.declarations,
      Rendering.Writable dialect declaration := by
  intro entity hentity declaration hmem
  obtain ⟨table, -, rfl⟩ := List.mem_map.1 hentity
  exact Rendering.writable_of_paired (Entity.paired_of_mem_told hmem) dialect

/-- A document that describes a schema gives a module for each entity, and the logger gets every
entry. -/
theorem modules_of_ok (h : Schema.validate document = .ok schema) :
    modules dialect logger path document =
      ⟨logger.outputs ((entities (some path) schema).flatMap entityEntries ++
          [endMessage dialect (entities (some path) schema).length]),
        .ok ((entities (some path) schema).map (written dialect))⟩ := by
  have hentities : (Logged.ofExcept
      ((Entity.ofDocument (some path) document).mapError GenerationError.build)).outcome =
        .ok (entities (some path) schema) := by
    rw [Entity.ofDocument_eq h]
    rfl
  have hall := writeAll_eq (writable_of_mem_entities (some path) schema dialect) logger
  have hwritten : ((writeAll dialect logger (entities (some path) schema)).mapError
      GenerationError.rendering).outcome =
        .ok ((entities (some path) schema).map (written dialect)) := by
    rw [hall]
    rfl
  rw [modules, Logged.bind_of_ok hentities, Logged.bind_of_ok hwritten, hall,
    Log.Logger.outputs_append]
  simp [Logged.ofExcept, Logged.mapError, Logged.tell, bind, Logged.bind]

theorem modules_of_error {error : SchemaError} (h : Schema.validate document = .error error) :
    modules dialect logger path document = ⟨[], .error (.build (.schema error))⟩ := by
  have hentities : (Logged.ofExcept
      ((Entity.ofDocument (some path) document).mapError GenerationError.build)).outcome =
        .error (.build (.schema error)) := by
    rw [Entity.ofDocument, h]
    rfl
  rw [modules, Logged.bind_of_error hentities]
  rfl

variable {settings : Settings} {config : Config}

theorem run_of_config (hconfig : settings.config = some config) (environment : Environment)
    (document : Document) :
    run settings environment document = runWith config settings document := by
  rw [run, hconfig]

theorem runWith_of_ok (h : Schema.validate document = .ok schema) :
    (runWith config settings document).outcome =
      .ok ((entities (some (settings.modulePath.getD config.modulePath)) schema).map
        (written settings.dialect)) := by
  rw [runWith, modules_of_ok h]

theorem runWith_of_error {error : SchemaError} (h : Schema.validate document = .error error) :
    runWith config settings document = ⟨[], .error (.build (.schema error))⟩ := by
  rw [runWith, modules_of_error h]

/-- A run fails exactly if its document describes no schema, for what is wrong in the document and
for nothing else, and then it prints and records nothing. Else there is a module for each table that
is no join table, and the other key of a join table has been where it was looked for. -/
theorem run_fails_iff (hconfig : settings.config = some config) (environment : Environment)
    (document : Document) :
    (∀ error, (run settings environment document).outcome = .error error ↔
      ∃ report, (Schema.check (some document)).result = .error report ∧
        error = .build (.schema (.invalid report))) ∧
    (∀ report, (Schema.check (some document)).result = .error report →
      (run settings environment document).outputs = []) ∧
    ∀ schema, (Schema.check (some document)).result = .ok schema →
      (∃ modules, (run settings environment document).outcome = .ok modules ∧
        modules.map (·.table) =
          (schema.tables.filter fun table => !table.isJoin).map (·.name)) ∧
      ∀ name, Entity.endsByPosition schema name =
        (Entity.joinEnds schema name).map fun (join, owning, other) =>
          (join, owning, some other) := by
  rw [run_of_config hconfig]
  refine ⟨?_, ?_, ?_⟩
  · intro error
    cases hcheck : (Schema.check (some document)).result with
    | error report =>
      rw [runWith_of_error (Schema.validate_of_error hcheck)]
      simp [eq_comm]
    | ok schema =>
      rw [runWith_of_ok (Schema.validate_of_ok hcheck)]
      simp
  · intro report hcheck
    rw [runWith_of_error (Schema.validate_of_error hcheck)]
  · intro schema hcheck
    refine ⟨⟨_, runWith_of_ok (Schema.validate_of_ok hcheck), ?_⟩, ?_⟩
    · rw [entities, List.map_map, List.map_map]
      rfl
    · exact Entity.endsByPosition_eq schema

def recording : Settings where
  config := some ⟨"App", some .info⟩
  logger := some .recorder

def haunted : Schema where
  tables := [⟨"posts", [{ name := "ghost_id", type := "uuid" }], [⟨"ghost_id", "ghosts", "id"⟩]⟩]

def hauntedReport : Report where
  first := ⟨[.key "tables", .index 0, .key "foreignKeys", .index 0, .key "referencedTable"],
    .unknownTable "ghosts"⟩
  rest := []

theorem run_fails_iff_recording :
    recording.config = some ⟨"App", some .info⟩ ∧
      (Schema.check (some haunted.toDocument)).result = .error hauntedReport ∧
      (run recording {} haunted.toDocument).outcome =
        .error (.build (.schema (.invalid hauntedReport))) ∧
      (run recording {} haunted.toDocument).outputs = [] ∧
      (Schema.check (some Entity.circle.toDocument)).result = .ok Entity.circle ∧
      ∃ modules, (run recording {} Entity.circle.toDocument).outcome = .ok modules ∧
        modules.map (·.table) = ["humans", "proofs"] := by
  have hconfig : recording.config = some ⟨"App", some .info⟩ := rfl
  have hhaunted : (Schema.check (some haunted.toDocument)).result = .error hauntedReport := by rfl
  have hcircle : (Schema.check (some Entity.circle.toDocument)).result = .ok Entity.circle := by rfl
  obtain ⟨herror, hsilent, -⟩ := run_fails_iff hconfig {} haunted.toDocument
  obtain ⟨-, -, hok⟩ := run_fails_iff hconfig {} Entity.circle.toDocument
  refine ⟨hconfig, hhaunted, (herror _).2 ⟨hauntedReport, hhaunted, rfl⟩,
    hsilent hauntedReport hhaunted, hcircle, ?_⟩
  exact (hok Entity.circle hcircle).1

end Generator
end Scaffold
