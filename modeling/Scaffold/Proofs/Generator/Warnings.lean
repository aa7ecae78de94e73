import Scaffold.Proofs.Generator.Logging
import Scaffold.Proofs.Rendering.Fields

/-!
What a run says of the columns that it leaves out. Each column of a table that has a module, but for
the primary key and the key columns, has either its line there or one warning in the log. The
columns of a join table have neither.
-/
namespace Scaffold
namespace Generator

open Entity (field ownColumns told)

variable {config : Config} {settings : Settings} {environment : Environment} {document : Document}
  {schema : Schema}

/-- The log of a run: of each entity that its module is begun and what is left out of it, and at
the end how many modules there are. -/
def report (dialect : Dialect) (entities : List Entity) : List Log.Entry :=
  entities.flatMap (fun entity =>
    { level := .debug, message := "Rendering module"
      data := [("table", .text entity.table), ("module", .text entity.moduleName),
        ("declarations", .nat entity.declarations.length)] } ::
      Rendering.fieldWarnings entity.declarations) ++
  [{ level := .info
     message := "Generated " ++ entities.length.repr ++ " module" ++
      (if entities.length = 1 then "" else "s")
     data := [("syntax", .text dialect.name)] }]

/-- Each own column of a table has a warning if it is of a vector type, and else a line in the
module; the other lines there are those of associations. -/
structure Accounted (dialect : Dialect) (table : Table) (entity : Entity) : Prop where
  table_eq : entity.table = table.name
  warned : (Rendering.fieldWarnings entity.declarations).Perm
    (((ownColumns table).filter fun column => Naming.IsVector column.type).map
      fun column => Rendering.warning column.name column.type)
  written : (Rendering.parts dialect entity).lines.Perm
    (((ownColumns table).filter fun column => ¬Naming.IsVector column.type).map
      (Rendering.write dialect ∘ field) ++
      (entity.declarations.filter (·.isAssociation)).map (Rendering.write dialect))

theorem entries_eq_report (h : Schema.validate document = .ok schema) :
    entries config settings document = report settings.dialect
      (entities (some (settings.modulePath.getD config.modulePath)) schema) := by
  have hentity : entityEntries = fun entity =>
      startMessage entity :: Rendering.fieldWarnings entity.declarations := by
    funext entity
    rw [entityEntries, Rendering.warnings_eq]
  rw [entries_of_ok h, hentity]
  rfl

theorem accounted_told (dialect : Dialect) (path : Option String) (schema : Schema)
    (table : Table) : Accounted dialect table (told path schema table) where
  table_eq := rfl
  warned := by
    have hreported := Rendering.reported_told_perm path schema table
    rw [← Rendering.warnings_eq]
    refine (hreported.map Rendering.vectorWarning).trans (.of_eq ?_)
    rw [List.map_map]
    apply List.map_congr_left
    intro column hmem
    have hvector : Naming.isUnsupported column.type = true :=
      (Naming.isUnsupported_iff column.type).2 (of_decide_eq_true (List.mem_filter.1 hmem).2)
    have hsubject : (field column).subject = column.type :=
      Naming.fieldType_of_isUnsupported hvector
    change Rendering.warning column.name (field column).subject = _
    rw [hsubject]
  written := by
    have hkept := Rendering.kept_told_perm path schema table
    rw [Rendering.lines_parts, ← List.map_map, ← List.map_append]
    exact hkept.map _

/-- The log of a run on a schema, entry by entry, and what it says of the columns: of a table with
a module, each column but the primary key and the key columns either has its line there or exactly
one warning. -/
theorem report_accounts (hschema : Schema.validate document = .ok schema)
    (hconfig : configuration settings environment = .ok config)
    (hlogger : settings.logger = some .recorder) :
    ∃ entities,
      Entity.ofDocument (some (settings.modulePath.getD config.modulePath)) document =
        .ok entities ∧
      (run settings environment document).outputs =
        (report settings.dialect entities).map .recorded ∧
      (run settings environment document).outcome =
        .ok (entities.map (written settings.dialect)) ∧
      List.Forall₂ (Accounted settings.dialect)
        (schema.tables.filter fun table => !table.isJoin) entities := by
  refine ⟨_, Entity.ofDocument_eq hschema, ?_, ?_, ?_⟩
  · rw [run_of_configuration hconfig, outputs_runWith, hlogger, entries_eq_report hschema]
    exact Log.outputs_recorder _
  · rw [run_of_configuration hconfig, runWith_of_ok hschema]
    rfl
  · rw [List.forall₂_map_right_iff, List.forall₂_same]
    intro table _
    exact accounted_told settings.dialect _ schema table

def embeddedProofs : Table where
  name := "proofs"
  columns := [{ name := "id", type := "uuid" }, { name := "body", type := "text" },
    { name := "embedding", type := "vector" }]
  foreignKeys := []

def authorships : Table where
  name := "authorships"
  columns := [{ name := "human_id", type := "uuid" }, { name := "proof_id", type := "uuid" },
    { name := "inserted_at", type := "timestamptz" }]
  foreignKeys := [⟨"human_id", "humans", "id"⟩, ⟨"proof_id", "proofs", "id"⟩]

/-- A column is of a vector type, and a join table has a column beside its keys. -/
def journal : Schema where
  tables := [Entity.humans, embeddedProofs, authorships]

theorem validate_journal : Schema.validate journal.toDocument = .ok journal := by rfl

theorem report_accounts_journal :
    Schema.validate journal.toDocument = .ok journal ∧
      configuration recording {} = .ok ⟨"App", some .info⟩ ∧
      recording.logger = some .recorder ∧
      ∃ entities, Entity.ofDocument (some "App") journal.toDocument = .ok entities ∧
        (run recording {} journal.toDocument).outputs =
          (report Dialect.ecto entities).map .recorded ∧
        (run recording {} journal.toDocument).outcome =
          .ok (entities.map (written Dialect.ecto)) ∧
        List.Forall₂ (Accounted Dialect.ecto)
          (journal.tables.filter fun table => !table.isJoin) entities := by
  have hconfig : configuration recording {} = .ok ⟨"App", some .info⟩ := rfl
  have hlogger : recording.logger = some .recorder := rfl
  obtain ⟨entities, hentities, houtputs, houtcome, haccounted⟩ :=
    report_accounts validate_journal hconfig hlogger
  exact ⟨validate_journal, hconfig, hlogger, entities, hentities, houtputs, houtcome, haccounted⟩

/-- The column of a join table that holds no key is in no module, and no warning says so. -/
theorem inserted_at_unreported :
    Schema.validate journal.toDocument = .ok journal ∧ authorships ∈ journal.tables ∧
      (∃ column ∈ authorships.columns, column.name = "inserted_at" ∧
        column.name ∉ authorships.keyColumns) ∧
      (run recording {} journal.toDocument).outcome = .ok
        [⟨"humans", "App.Human", "defmodule App.Human do\n  use Ecto.Schema\n\n" ++
            "  schema \"humans\" do\n" ++
            "    many_to_many :proofs, App.Proof, join_through: \"authorships\"\n  end\nend\n"⟩,
          ⟨"proofs", "App.Proof", "defmodule App.Proof do\n  use Ecto.Schema\n\n" ++
            "  schema \"proofs\" do\n    field :body, :string\n" ++
            "    many_to_many :humans, App.Human, join_through: \"authorships\"\n  end\nend\n"⟩] ∧
      ∀ entry, .recorded entry ∈ (run recording {} journal.toDocument).outputs →
        entry.level = .warn → entry = Rendering.warning "embedding" "vector" := by
  have hconfig : configuration recording {} = .ok ⟨"App", some .info⟩ := rfl
  have hreport : (report Dialect.ecto (entities (some "App") journal)).filter
      (·.level = .warn) = [Rendering.warning "embedding" "vector"] := by decide +kernel
  refine ⟨validate_journal, by simp [journal], ?_, ?_, ?_⟩
  · exact ⟨⟨"inserted_at", "timestamptz", none, none⟩, by decide, rfl, by decide⟩
  · rw [run_of_configuration hconfig, runWith_of_ok validate_journal]
    decide +kernel
  · intro entry hmem hlevel
    rw [run_of_configuration hconfig, outputs_runWith, entries_eq_report validate_journal] at hmem
    have hentry : entry ∈ report Dialect.ecto (entities (some "App") journal) :=
      Log.recorded_mem_outputs_iff.1 hmem
    have hwarn : entry ∈ (report Dialect.ecto (entities (some "App") journal)).filter
        (·.level = .warn) := List.mem_filter.2 ⟨hentry, by simpa using hlevel⟩
    rwa [hreport, List.mem_singleton] at hwarn

end Generator
end Scaffold
