import Scaffold.Proofs.Entity.Targets
import Scaffold.Proofs.Naming.ModuleNames

/-!
The module paths that entities have and that their associations are to. Under the path of a loaded
configuration, each is this path with the name of one table's module after it. If the singular of the
table is in snake case, the whole is again a path that a configuration may have
(`build_module_paths_load`).
-/
namespace Scaffold

/-- The names of tables in a schema: those of its tables, and those that keys refer to. -/
def Schema.mentioned (schema : Schema) : List String :=
  schema.tables.flatMap fun table => table.name :: table.foreignKeys.map (·.referencedTable)

theorem Schema.mem_mentioned_of_mem {schema : Schema} {table : Table} (h : table ∈ schema.tables) :
    table.name ∈ schema.mentioned :=
  List.mem_flatMap.2 ⟨table, h, List.mem_cons_self⟩

theorem Schema.mem_mentioned_of_key {schema : Schema} {table : Table} {key : ForeignKey}
    (h : table ∈ schema.tables) (hkey : key ∈ table.foreignKeys) :
    key.referencedTable ∈ schema.mentioned :=
  List.mem_flatMap.2 ⟨table, h, List.mem_cons_of_mem _ (List.mem_map_of_mem hkey)⟩

/-- A module path is that of a table under the path of a configuration. If the singular of the table is
in snake case, it may stand in place of the configuration's own path. -/
structure IsModuleOf (environment : Environment) (config : Config) (table path : String) : Prop where
  eq : path = config.modulePath ++ "." ++ Naming.moduleName table
  isPath : Naming.IsSnakeCase (Inflection.singular table).toList → Config.IsPath path
  load_eq : Naming.IsSnakeCase (Inflection.singular table).toList →
    Config.load { environment with modulePath := some (.text path) } =
      .ok { config with modulePath := path }

namespace Entity

variable {path : Option String} {schema : Schema} {table : Table} {declaration : Declaration}

theorem exists_subject_eq (htable : table ∈ schema.tables)
    (hmem : declaration ∈ (told path schema table).declarations)
    (hassociation : declaration.isAssociation = true) :
    ∃ target ∈ schema.mentioned, declaration.subject = qualified path target := by
  cases hkind : declaration.kind with
  | field => simp [Declaration.isAssociation, hkind] at hassociation
  | belongsTo =>
    obtain ⟨key, hkey, rfl⟩ := exists_key_of_belongsTo hmem hkind
    exact ⟨key.referencedTable, Schema.mem_mentioned_of_key htable hkey, rfl⟩
  | hasMany =>
    obtain ⟨source, hsource, -, key, -, -, rfl⟩ := exists_reference_of_inverse hmem (.inl hkind)
    exact ⟨source.name, Schema.mem_mentioned_of_mem hsource, rfl⟩
  | hasOne =>
    obtain ⟨source, hsource, -, key, -, -, rfl⟩ := exists_reference_of_inverse hmem (.inr hkind)
    exact ⟨source.name, Schema.mem_mentioned_of_mem hsource, rfl⟩
  | manyToMany =>
    obtain ⟨join, hjoin, -, owning, other, hends, -, rfl⟩ := exists_ends_of_manyToMany hmem hkind
    have hother := mem_foreignKeys_of_mem_ends hends
    exact ⟨other.referencedTable, Schema.mem_mentioned_of_key hjoin hother, rfl⟩

theorem exists_told_of_build {name : String} {entity : Entity}
    (h : build path schema name = .ok entity) :
    ∃ table ∈ schema.tables, table.name = name ∧ entity = told path schema table := by
  cases htable : schema.table? name with
  | none =>
    rw [build, htable] at h
    cases h
  | some table =>
    have hname : table.name = name := by simpa using List.find?_some htable
    rw [← hname] at h htable
    rw [build_eq_of_table? htable] at h
    exact ⟨table, List.mem_of_find?_eq_some htable, hname, (Except.ok.inj h).symm⟩

theorem qualified_of_ne {path : String} (h : path ≠ "") (table : String) :
    qualified (some path) table = path ++ "." ++ Naming.moduleName table := by
  simp [qualified]

theorem isModuleOf_qualified {environment : Environment} {config : Config}
    (hload : Config.load environment = .ok config) (table : String) :
    IsModuleOf environment config table (qualified (some config.modulePath) table) := by
  obtain ⟨hpath, hother⟩ := Config.load_with_path hload
  have heq := qualified_of_ne (Config.modulePath_ne_empty hload) table
  have hwhole : Naming.IsSnakeCase (Inflection.singular table).toList →
      Config.IsPath (qualified (some config.modulePath) table) := by
    intro hsnake
    rw [heq]
    exact (Config.isModulePath_iff.1 hpath).append (Naming.isPart_moduleName hsnake)
  exact ⟨heq, hwhole, fun hsnake => hother _ (Config.isModulePath_iff.2 (hwhole hsnake))⟩

/-- Under a loaded path, the module path of each entity is that of its table, and those that its
associations are to are those of tables that the schema mentions. If the singular of a table is in
snake case, its module path can be loaded in turn, and the part that it adds is made of the words of
the singular that are not empty, each with a capital. -/
theorem build_module_paths_load {environment : Environment} {config : Config}
    (hload : Config.load environment = .ok config) :
    (∀ table, IsModuleOf environment config table (qualified (some config.modulePath) table)) ∧
    (∀ table, Naming.IsSnakeCase (Inflection.singular table).toList →
      (Naming.moduleName table).toList =
        (((Inflection.singular table).toList.splitOn '_').filter (· ≠ [])).flatMap
          (·.modifyHead Char.toUpper)) ∧
    ∀ schema name entity, build (some config.modulePath) schema name = .ok entity →
      IsModuleOf environment config name entity.moduleName ∧
      ∀ declaration ∈ entity.declarations, declaration.isAssociation = true →
        ∃ target ∈ schema.mentioned,
          IsModuleOf environment config target declaration.subject := by
  refine ⟨isModuleOf_qualified hload, fun table => Naming.moduleName_of_isSnakeCase, ?_⟩
  intro schema name entity hbuild
  obtain ⟨table, htable, rfl, rfl⟩ := exists_told_of_build hbuild
  refine ⟨isModuleOf_qualified hload table.name, ?_⟩
  intro declaration hmem hassociation
  obtain ⟨target, htarget, hsubject⟩ := exists_subject_eq htable hmem hassociation
  rw [hsubject]
  exact ⟨target, htarget, isModuleOf_qualified hload target⟩

theorem build_module_paths_load_keys :
    Config.load (.ofTexts (some "Blog.V2") none) = .ok ⟨"Blog.V2", some .info⟩ ∧
      Naming.IsSnakeCase (Inflection.singular "api__2_keys").toList ∧
      Naming.moduleName "api__2_keys" = "Api2Key" ∧
      Config.load (.ofTexts (some "Blog.V2.Api2Key") none) =
        .ok ⟨"Blog.V2.Api2Key", some .info⟩ ∧
      ∃ entity, build (some "Blog.V2") circle humans.name = .ok entity ∧
        entity.moduleName = "Blog.V2.Human" ∧
        ∀ declaration ∈ entity.declarations, declaration.isAssociation = true →
          ∃ target ∈ circle.mentioned,
            declaration.subject = "Blog.V2" ++ "." ++ Naming.moduleName target := by
  have hload : Config.load (.ofTexts (some "Blog.V2") none) =
      .ok ⟨"Blog.V2", some .info⟩ := by decide +kernel
  have hsingular : Inflection.singular "api__2_keys" = "api__2_key" := by decide +kernel
  have hsnake : Naming.IsSnakeCase (Inflection.singular "api__2_keys").toList := by
    rw [hsingular]
    decide
  have hname : Naming.moduleName "api__2_keys" = "Api2Key" := by
    rw [Naming.moduleName, hsingular]
    decide
  have hhuman : Naming.moduleName "humans" = "Human" := by decide +kernel
  obtain ⟨htables, -, hentities⟩ := build_module_paths_load hload
  have hkeys := (htables "api__2_keys").load_eq hsnake
  rw [(htables "api__2_keys").eq, hname] at hkeys
  have htable : circle.table? humans.name = some humans := rfl
  have hbuild : build (some "Blog.V2") circle humans.name =
      .ok (told (some "Blog.V2") circle humans) := build_eq_of_table? htable
  obtain ⟨hmodule, hassociations⟩ := hentities circle humans.name _ hbuild
  refine ⟨hload, hsnake, hname, hkeys, _, hbuild, ?_, ?_⟩
  · exact hmodule.eq.trans (congrArg ("Blog.V2" ++ "." ++ ·) hhuman)
  · intro declaration hmem hassociation
    obtain ⟨target, htarget, hsubject⟩ := hassociations declaration hmem hassociation
    exact ⟨target, htarget, hsubject.eq⟩

end Entity
end Scaffold
