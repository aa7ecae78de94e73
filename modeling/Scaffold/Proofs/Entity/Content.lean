import Scaffold.Proofs.Entity.Origins

/-!
What is in the entities of a schema. The four lists below say, in the words of the schema, which
fields and associations a table has to have. Its entity has these, each as often as it is listed,
and nothing else, whatever names the passes give them.
-/
namespace Scaffold
namespace Entity

variable {path : Option String} {schema : Schema} {table : Table}

def fieldContents (table : Table) : List (Kind × String × Options) :=
  (table.columns.filter fun column =>
    ∀ key ∈ table.foreignKeys, key.column ≠ column.name).map fun column =>
      (.field, Naming.fieldType column.type, { values := column.enumValues })

def belongsToContents (path : Option String) (table : Table) : List (Kind × String × Options) :=
  table.foreignKeys.map fun key =>
    (.belongsTo, qualified path key.referencedTable,
      keyOptions key (Inflection.singular (Naming.stripKeySuffix key.column) ++ Naming.keySuffix))

/-- An association for each key that refers to a table, in a table that is no join table; it is
single if a column of that name is unique. -/
def inverseContents (path : Option String) (schema : Schema) (table : Table) :
    List (Kind × String × Options) :=
  (schema.tables.filter fun source => !source.isJoin).flatMap fun source =>
    (source.foreignKeys.filter fun key => key.referencedTable = table.name).map fun key =>
      (if ∃ column ∈ source.columns, column.name = key.column ∧ column.unique = some true
        then .hasOne else .hasMany,
        qualified path source.name, keyOptions key (Naming.defaultKey table.name))

/-- An association for each key of a join table that refers to a table, through the join table to
the table of the other key. -/
def manyToManyContents (path : Option String) (schema : Schema) (table : Table) :
    List (Kind × String × Options) :=
  (schema.tables.filter fun join => join.isJoin).flatMap fun join =>
    (join.ends.filter fun ends => ends.1.referencedTable = table.name).map fun (owning, other) =>
      (.manyToMany, qualified path other.referencedTable,
        { key := if owning.column = Naming.defaultKey table.name then none
            else some owning.column
          joinTable := some join.name
          joinKeys :=
            if owning.column = Naming.defaultKey table.name ∧
                other.column = Naming.defaultKey other.referencedTable then none
            else some (.ofPairs (owning.column, table.name)
              (other.column, other.referencedTable)) })

/-- An entity has what its table has to have and nothing else. -/
structure Complete (path : Option String) (schema : Schema) (table : Table) (entity : Entity) :
    Prop where
  table_eq : entity.table = table.name
  moduleName_eq : entity.moduleName = qualified path table.name
  /-- The associations by join tables stand last, in the order of the join tables and their keys. -/
  content : ∃ keyedPart joinedPart, entity.declarations = keyedPart ++ joinedPart ∧
    (∀ declaration ∈ keyedPart, declaration.kind ≠ .manyToMany) ∧
    (keyedPart.map Declaration.content).Perm
      (fieldContents table ++ belongsToContents path table ++
        inverseContents path schema table) ∧
    joinedPart.map Declaration.content = manyToManyContents path schema table

theorem map_content_fields (table : Table) :
    (fields table).map Declaration.content = fieldContents table := by
  have hfilter : (table.columns.filter fun column => !table.keyColumns.contains column.name) =
      table.columns.filter fun column =>
        ∀ key ∈ table.foreignKeys, key.column ≠ column.name := by
    apply List.filter_congr
    intro column _
    rw [Bool.eq_iff_iff]
    simp [Table.keyColumns]
  rw [fields, hfilter, List.map_map]
  rfl

theorem map_content_belongsTo (path : Option String) (table : Table) :
    (table.foreignKeys.map (belongsTo path)).map Declaration.content =
      belongsToContents path table := by
  rw [List.map_map]
  rfl

theorem content_inverse (path : Option String) (name : String) (source : Table)
    (key : ForeignKey) : (inverse path name source key).content =
      (if ∃ column ∈ source.columns, column.name = key.column ∧ column.unique = some true
        then .hasOne else .hasMany,
        qualified path source.name, keyOptions key (Naming.defaultKey name)) := by
  have hsingle : (source.columns.any fun column =>
      column.name == key.column && column.isUnique) = true ↔
        ∃ column ∈ source.columns, column.name = key.column ∧ column.unique = some true := by
    simp [Column.isUnique]
  simp only [inverse, Declaration.content, hsingle]

theorem map_content_inverse (path : Option String) (schema : Schema) (table : Table) :
    ((references schema table.name).map fun (source, key) =>
      inverse path table.name source key).map Declaration.content =
        inverseContents path schema table := by
  rw [references, inverseContents, List.map_map, List.map_flatMap]
  congr 1
  funext source
  rw [List.map_map]
  have hkeys : (source.foreignKeys.filter fun key => key.referencedTable == table.name) =
      source.foreignKeys.filter fun key => key.referencedTable = table.name := rfl
  rw [hkeys]
  apply List.map_congr_left
  intro key _
  exact content_inverse path table.name source key

theorem map_content_joined (path : Option String) (schema : Schema) (table : Table) :
    (joined path schema table).map Declaration.content =
      manyToManyContents path schema table := by
  rw [joined, joinEnds_eq, manyToManyContents, List.map_map, List.map_flatMap]
  congr 1
  funext join
  rw [List.map_map]
  rfl

/-- The passes change names alone, so what the table has alone is what its entity has. -/
theorem complete_told (path : Option String) (schema : Schema) (table : Table) :
    Complete path schema table (told path schema table) := by
  refine ⟨rfl, rfl, _, _, rfl, fun _ => kind_ne_of_mem_byKey, ?_, ?_⟩
  · have hperm := (byKey_keyed_perm path schema table).map Declaration.content
    have hsame : ((keyed path schema table).map (toldKeyed path schema table)).map
        Declaration.content = (keyed path schema table).map Declaration.content := by
      rw [List.map_map]
      apply List.map_congr_left
      intro declaration _
      exact content_toldKeyed path schema table declaration
    rw [hsame, keyed, List.map_append, List.map_append, map_content_fields,
      map_content_belongsTo, map_content_inverse] at hperm
    exact hperm
  · rw [← map_content_joined, List.map_map]
    apply List.map_congr_left
    intro declaration _
    exact content_toldJoined path schema table declaration

/-- The entities of a document: one for each table that is no join table, in the order of the
tables, and each of them complete. -/
theorem ofDocument_complete {document : Document}
    (hschema : Schema.validate document = .ok schema) (path : Option String) :
    ∃ entities, ofDocument path document = .ok entities ∧
      List.Forall₂ (Complete path schema)
        (schema.tables.filter fun table => !table.isJoin) entities := by
  refine ⟨_, ofDocument_eq hschema, ?_⟩
  rw [List.forall₂_map_right_iff, List.forall₂_same]
  intro table _
  exact complete_told path schema table

theorem ofDocument_complete_archive :
    Schema.validate archive.toDocument = .ok archive ∧
      ∃ entities, ofDocument (some "App") archive.toDocument = .ok entities ∧
        List.Forall₂ (Complete (some "App") archive)
          (archive.tables.filter fun table => !table.isJoin) entities :=
  ⟨validate_archive, ofDocument_complete validate_archive (some "App")⟩

end Entity
end Scaffold
