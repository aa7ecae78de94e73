import Scaffold.Proofs.Entity.Origins

/-!
The columns that the associations of an entity are by. An association by a key states the column
and the referenced column of the key only where they are not the defaults, and the default column
of a `belongsTo` association comes from its name, which a pass may change. It never changes the
name of an association that counts on it, so both ends of a key still state the key's own columns.
-/
namespace Scaffold

namespace Declaration

/-- The column that an association in the entity of a table is by: the one it states or the
default, which comes from the name of a `belongsTo` association and else from the table. -/
def keyColumn (owner : String) (declaration : Declaration) : String :=
  declaration.options.key.getD
    (if declaration.kind = .belongsTo then declaration.name ++ "_id"
      else Inflection.singular owner ++ "_id")

/-- The referenced column of an association by a key: the one it states or the default. -/
def referencedColumn (declaration : Declaration) : String :=
  declaration.options.referenced.getD "id"

end Declaration

namespace Entity

variable {path : Option String} {schema : Schema} {table : Table}

theorem getD_unless_default (column default : String) :
    (if column = default then none else some column).getD default = column := by
  by_cases h : column = default
  · rw [if_pos h, h]
    rfl
  · rw [if_neg h]
    rfl

theorem getD_key_keyOptions (key : ForeignKey) (defaultColumn : String) :
    (keyOptions key defaultColumn).key.getD defaultColumn = key.column :=
  getD_unless_default key.column defaultColumn

theorem getD_referenced_keyOptions (key : ForeignKey) (defaultColumn : String) :
    (keyOptions key defaultColumn).referenced.getD defaultReferenced = key.referencedColumn :=
  getD_unless_default key.referencedColumn defaultReferenced

theorem keyColumn_belongsTo (path : Option String) (owner : String) (key : ForeignKey) :
    (belongsTo path key).keyColumn owner = key.column := by
  have hkind : (belongsTo path key).kind = .belongsTo := rfl
  rw [Declaration.keyColumn, if_pos hkind]
  exact getD_key_keyOptions key _

theorem keyColumn_inverse (path : Option String) (owner : String) (source : Table)
    (key : ForeignKey) : (inverse path owner source key).keyColumn owner = key.column := by
  have hkind : (inverse path owner source key).kind ≠ .belongsTo := by
    simp only [inverse]
    split <;> simp
  rw [Declaration.keyColumn, if_neg hkind]
  exact getD_key_keyOptions key _

theorem referencedColumn_belongsTo (path : Option String) (key : ForeignKey) :
    (belongsTo path key).referencedColumn = key.referencedColumn :=
  getD_referenced_keyOptions key _

theorem referencedColumn_inverse (path : Option String) (owner : String) (source : Table)
    (key : ForeignKey) :
    (inverse path owner source key).referencedColumn = key.referencedColumn :=
  getD_referenced_keyOptions key _

/-- The pass by keys gives an alias only to associations that state their column. -/
theorem keyColumn_toldKeyed (owner : String) (declaration : Declaration) :
    (toldKeyed path schema table declaration).keyColumn owner = declaration.keyColumn owner := by
  cases hkey : declaration.options.key with
  | none =>
    have hgiven : Disambiguation.given? (keyed path schema table) Disambiguation.keyAlias?
        declaration = none := by
      simp [Disambiguation.given?, Disambiguation.keyAlias?, hkey]
    rw [toldKeyed, Disambiguation.renamed, hgiven, Declaration.under_none]
  | some column =>
    have hoptions : (toldKeyed path schema table declaration).options = declaration.options := rfl
    simp [Declaration.keyColumn, hoptions, hkey]

theorem referencedColumn_toldKeyed (declaration : Declaration) :
    (toldKeyed path schema table declaration).referencedColumn =
      declaration.referencedColumn := rfl

/-- The associations by keys of an entity state the columns of the keys that they come from. -/
structure StatesKeyColumns (path : Option String) (schema : Schema) (table : Table)
    (entity : Entity) : Prop where
  own : ∀ declaration ∈ entity.declarations, declaration.kind = .belongsTo →
    ∃ key ∈ table.foreignKeys,
      key.column = declaration.keyColumn table.name ∧
      key.referencedColumn = declaration.referencedColumn ∧
      ∃ referenced ∈ schema.tables, referenced.name = key.referencedTable ∧
        declaration.subject = qualified path referenced.name
  back : ∀ declaration ∈ entity.declarations,
    declaration.kind = .hasMany ∨ declaration.kind = .hasOne →
    ∃ source ∈ schema.tables, source.isJoin = false ∧
      declaration.subject = qualified path source.name ∧
      ∃ key ∈ source.foreignKeys, key.referencedTable = table.name ∧
        key.column = declaration.keyColumn table.name ∧
        key.referencedColumn = declaration.referencedColumn
  /-- The two associations of one key agree, each in the entity of its own table. -/
  agree : ∀ source ∈ schema.tables, source.isJoin = false →
    ∃ sourceEntity, build path schema source.name = .ok sourceEntity ∧
      ∀ key ∈ source.foreignKeys, key.referencedTable = table.name →
        ∃ own ∈ sourceEntity.declarations, ∃ back ∈ entity.declarations,
          own = toldKeyed path schema source (belongsTo path key) ∧
          back = toldKeyed path schema table (inverse path table.name source key) ∧
          own.keyColumn source.name = key.column ∧ back.keyColumn table.name = key.column ∧
          own.referencedColumn = key.referencedColumn ∧
          back.referencedColumn = key.referencedColumn

/-- Whatever the passes rename, an entity states the columns that the schema has. -/
theorem statesKeyColumns_of_validate {document : Document}
    (hschema : Schema.validate document = .ok schema) (path : Option String)
    (htable : table ∈ schema.tables) :
    ∃ entity, build path schema table.name = .ok entity ∧
      StatesKeyColumns path schema table entity := by
  have hvalid := Schema.validate_valid hschema
  refine ⟨told path schema table, build_eq hvalid htable, ?_, ?_, ?_⟩
  · intro declaration hmem hkind
    obtain ⟨key, hkey, rfl⟩ := exists_key_of_belongsTo hmem hkind
    obtain ⟨referenced, hreferenced, hname⟩ := hvalid.exists_referenced htable hkey
    refine ⟨key, hkey, ?_, ?_, referenced, hreferenced, hname, ?_⟩
    · rw [keyColumn_toldKeyed, keyColumn_belongsTo]
    · rw [referencedColumn_toldKeyed, referencedColumn_belongsTo]
    · rw [subject_toldKeyed, hname]
      rfl
  · intro declaration hmem hkind
    obtain ⟨source, hsource, hjoin, key, hkey, hname, rfl⟩ :=
      exists_reference_of_inverse hmem hkind
    refine ⟨source, hsource, hjoin, ?_, key, hkey, hname, ?_, ?_⟩
    · rw [subject_toldKeyed]
      rfl
    · rw [keyColumn_toldKeyed, keyColumn_inverse]
    · rw [referencedColumn_toldKeyed, referencedColumn_inverse]
  · intro source hsource hjoin
    refine ⟨told path schema source, build_eq hvalid hsource, ?_⟩
    intro key hkey hname
    have hreference := mem_references_iff.2 ⟨hsource, hjoin, hkey, hname⟩
    refine ⟨_, belongsTo_mem_told hkey, _, inverse_mem_told hreference, rfl, rfl, ?_, ?_, ?_, ?_⟩
    · rw [keyColumn_toldKeyed, keyColumn_belongsTo]
    · rw [keyColumn_toldKeyed, keyColumn_inverse]
    · rw [referencedColumn_toldKeyed, referencedColumn_belongsTo]
    · rw [referencedColumn_toldKeyed, referencedColumn_inverse]

theorem statesKeyColumns_of_validate_archive :
    Schema.validate archive.toDocument = .ok archive ∧ humans ∈ archive.tables ∧
      ∃ entity, build (some "App") archive humans.name = .ok entity ∧
        StatesKeyColumns (some "App") archive humans entity := by
  have hmem : humans ∈ archive.tables := List.mem_cons_self
  exact ⟨validate_archive, hmem, statesKeyColumns_of_validate validate_archive (some "App") hmem⟩

end Entity
end Scaffold
