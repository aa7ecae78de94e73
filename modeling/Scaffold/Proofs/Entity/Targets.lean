import Scaffold.Proofs.Entity.Origins

/-!
What the associations of a schema's entities are to. Each is to the module of one table, and this
is the module of exactly one entity whenever that table is no join table. A key may refer to a join
table, which has no entity.
-/
namespace Scaffold
namespace Entity

variable {path : Option String} {schema : Schema} {table target : Table}

/-- The table that an association in the entity of a table is to, by the key it comes from. -/
inductive LeadsTo (path : Option String) (schema : Schema) (table : Table) :
    Declaration → Table → Prop
  /-- The table that a key of the table itself refers to. -/
  | belongsTo {target : Table} {key : ForeignKey} (hkey : key ∈ table.foreignKeys)
      (hname : key.referencedTable = target.name) :
      LeadsTo path schema table (toldKeyed path schema table (belongsTo path key)) target
  /-- The table that holds a key to the table, and has an entity of its own. -/
  | inverse {source : Table} {key : ForeignKey} (hjoin : source.isJoin = false)
      (hkey : key ∈ source.foreignKeys) (hname : key.referencedTable = table.name) :
      LeadsTo path schema table
        (toldKeyed path schema table (inverse path table.name source key)) source
  /-- The table that the other key of a join table refers to. -/
  | manyToMany {target join : Table} {owning other : ForeignKey} (hjoin : join ∈ schema.tables)
      (his : join.isJoin = true) (hends : (owning, other) ∈ join.ends)
      (hown : owning.referencedTable = table.name) (hname : other.referencedTable = target.name) :
      LeadsTo path schema table
        (toldJoined path schema table (manyToMany path table.name join owning other)) target

/-- A module is that of exactly one entity, the entity of a table. -/
structure Resolves (entities : List Entity) (moduleName : String) (target : Table) : Prop where
  exists_entity : ∃ entity ∈ entities, entity.table = target.name ∧ entity.moduleName = moduleName
  unique : (entities.map (·.moduleName)).count moduleName = 1

theorem LeadsTo.subject_eq {declaration : Declaration}
    (h : LeadsTo path schema table declaration target) :
    declaration.subject = qualified path target.name := by
  cases h with
  | belongsTo hkey hname =>
    rw [subject_toldKeyed, ← hname]
    rfl
  | inverse hjoin hkey hname =>
    rw [subject_toldKeyed]
    rfl
  | manyToMany hjoin his hends hown hname =>
    rw [subject_toldJoined, ← hname]
    rfl

/-- An association by a key of another table is to a table that has an entity. -/
theorem LeadsTo.isJoin_eq_false {declaration : Declaration}
    (h : LeadsTo path schema table declaration target)
    (hkind : declaration.kind = .hasMany ∨ declaration.kind = .hasOne) :
    target.isJoin = false := by
  cases h with
  | belongsTo hkey hname =>
    rw [kind_toldKeyed] at hkind
    rcases hkind with hkind | hkind <;> cases hkind
  | inverse hjoin hkey hname => exact hjoin
  | manyToMany hjoin his hends hown hname =>
    rw [kind_toldJoined] at hkind
    rcases hkind with hkind | hkind <;> cases hkind

theorem mem_foreignKeys_of_mem_ends {join : Table} {owning other : ForeignKey}
    (h : (owning, other) ∈ join.ends) : other ∈ join.foreignKeys :=
  List.mem_reverse.1 (List.of_mem_zip h).2

theorem exists_leadsTo (hvalid : schema.Valid) (htable : table ∈ schema.tables)
    {declaration : Declaration} (hmem : declaration ∈ (told path schema table).declarations)
    (hassociation : declaration.isAssociation = true) :
    ∃ target ∈ schema.tables, LeadsTo path schema table declaration target := by
  cases hkind : declaration.kind with
  | field => simp [Declaration.isAssociation, hkind] at hassociation
  | belongsTo =>
    obtain ⟨key, hkey, rfl⟩ := exists_key_of_belongsTo hmem hkind
    obtain ⟨target, htarget, hname⟩ := hvalid.exists_referenced htable hkey
    exact ⟨target, htarget, .belongsTo hkey hname.symm⟩
  | hasMany =>
    obtain ⟨source, hsource, hjoin, key, hkey, hname, rfl⟩ :=
      exists_reference_of_inverse hmem (.inl hkind)
    exact ⟨source, hsource, .inverse hjoin hkey hname⟩
  | hasOne =>
    obtain ⟨source, hsource, hjoin, key, hkey, hname, rfl⟩ :=
      exists_reference_of_inverse hmem (.inr hkind)
    exact ⟨source, hsource, .inverse hjoin hkey hname⟩
  | manyToMany =>
    obtain ⟨join, hjoin, his, owning, other, hends, hown, rfl⟩ :=
      exists_ends_of_manyToMany hmem hkind
    obtain ⟨target, htarget, hname⟩ :=
      hvalid.exists_referenced hjoin (mem_foreignKeys_of_mem_ends hends)
    exact ⟨target, htarget, .manyToMany hjoin his hends hown hname.symm⟩

theorem moduleName_eq_of_qualified_eq {first second : String}
    (h : qualified path first = qualified path second) :
    Naming.moduleName first = Naming.moduleName second := by
  simp only [qualified] at h
  split at h
  · exact h
  · exact h
  · exact String.append_right_inj _ |>.1 h

theorem modules_nodup (hmodules : (schema.tables.map fun table =>
    Naming.moduleName table.name).Nodup) (keep : Table → Bool) :
    ((schema.tables.filter keep).map fun table => qualified path table.name).Nodup := by
  have hfilter := (List.filter_sublist (p := keep) (l := schema.tables)).map fun table =>
    Naming.moduleName table.name
  have hnodup := hmodules.sublist hfilter
  rw [List.Nodup, List.pairwise_map] at hnodup ⊢
  apply hnodup.imp
  intro first second hne heq
  exact hne (moduleName_eq_of_qualified_eq heq)

/-- The module of a table that is no join table is that of its entity alone. -/
theorem resolves_told (hmodules : (schema.tables.map fun table =>
    Naming.moduleName table.name).Nodup) (htarget : target ∈ schema.tables)
    (hjoin : target.isJoin = false) :
    Resolves ((schema.tables.filter fun table => !table.isJoin).map (told path schema))
      (qualified path target.name) target := by
  have hmem : target ∈ schema.tables.filter fun table => !table.isJoin := by
    simp [htarget, hjoin]
  refine ⟨⟨told path schema target, List.mem_map_of_mem hmem, rfl, rfl⟩, ?_⟩
  rw [List.map_map]
  apply List.count_eq_one_of_mem
  · exact modules_nodup hmodules _
  · exact List.mem_map.2 ⟨target, hmem, rfl⟩

/-- Every association is to the module of one table of the schema, and unless that is a join table,
exactly one entity has the module, which is the entity of that table. -/
theorem ofDocument_resolves {document : Document}
    (hschema : Schema.validate document = .ok schema)
    (hmodules : (schema.tables.map fun table => Naming.moduleName table.name).Nodup)
    (path : Option String) :
    ∃ entities, ofDocument path document = .ok entities ∧
      ∀ entity ∈ entities, ∃ table ∈ schema.tables, entity.table = table.name ∧
        ∀ declaration ∈ entity.declarations, declaration.isAssociation = true →
          ∃ target ∈ schema.tables, LeadsTo path schema table declaration target ∧
            (declaration.kind = .hasMany ∨ declaration.kind = .hasOne →
              target.isJoin = false) ∧
            (target.isJoin = false → Resolves entities declaration.subject target) := by
  have hvalid := Schema.validate_valid hschema
  refine ⟨_, ofDocument_eq hschema, ?_⟩
  intro entity hentity
  obtain ⟨table, hmem, rfl⟩ := List.mem_map.1 hentity
  have htable := List.mem_of_mem_filter hmem
  refine ⟨table, htable, rfl, ?_⟩
  intro declaration hdeclaration hassociation
  obtain ⟨target, htarget, hleads⟩ := exists_leadsTo hvalid htable hdeclaration hassociation
  refine ⟨target, htarget, hleads, hleads.isJoin_eq_false, ?_⟩
  intro hjoin
  rw [hleads.subject_eq]
  exact resolves_told hmodules htarget hjoin

def series : Table where
  name := "series"
  columns := [{ name := "id", type := "uuid" }]
  foreignKeys := []

def research : Table where
  name := "research"
  columns := [{ name := "id", type := "uuid" }, { name := "human_id", type := "uuid" },
    { name := "series_id", type := "uuid" }]
  foreignKeys := [⟨"human_id", "humans", "id"⟩, ⟨"series_id", "series", "id"⟩]

def news : Table where
  name := "news"
  columns := [{ name := "title", type := "text" }, { name := "human_id", type := "uuid" },
    { name := "research_id", type := "uuid" }]
  foreignKeys := [⟨"human_id", "humans", "id"⟩, ⟨"research_id", "research", "id"⟩]

def library : Schema where
  tables := [humans, series, research, news]

theorem validate_library : Schema.validate library.toDocument = .ok library := by rfl

theorem modules_nodup_library :
    (library.tables.map fun table => Naming.moduleName table.name).Nodup := by decide +kernel

theorem ofDocument_resolves_library :
    Schema.validate library.toDocument = .ok library ∧
      (library.tables.map fun table => Naming.moduleName table.name).Nodup ∧
      ∃ entities, ofDocument none library.toDocument = .ok entities ∧
        ∀ entity ∈ entities, ∃ table ∈ library.tables, entity.table = table.name ∧
          ∀ declaration ∈ entity.declarations, declaration.isAssociation = true →
            ∃ target ∈ library.tables, LeadsTo none library table declaration target ∧
              (declaration.kind = .hasMany ∨ declaration.kind = .hasOne →
                target.isJoin = false) ∧
              (target.isJoin = false → Resolves entities declaration.subject target) :=
  ⟨validate_library, modules_nodup_library,
    ofDocument_resolves validate_library modules_nodup_library none⟩

/-- No entity has the module that the key of `news` to the join table leads to, and the association
of `humans` by the other key of `news` is to `News`, not to the table that this key refers to. -/
theorem library_not_resolves :
    Schema.validate library.toDocument = .ok library ∧
      (library.tables.map fun table => Naming.moduleName table.name).Nodup ∧
      ∃ entities, ofDocument none library.toDocument = .ok entities ∧
        (∃ entity ∈ entities, ∃ declaration ∈ entity.declarations,
          declaration.kind = .belongsTo ∧ LeadsTo none library news declaration research ∧
            (entities.map (·.moduleName)).count declaration.subject = 0) ∧
        ∃ entity ∈ entities, ∃ declaration ∈ entity.declarations,
          declaration.kind = .hasMany ∧ LeadsTo none library humans declaration news ∧
            ¬Resolves entities declaration.subject humans := by
  have hmodules : ((library.tables.filter fun table => !table.isJoin).map (told none library)).map
      (·.moduleName) = ["Human", "Series", "News"] := by decide +kernel
  refine ⟨validate_library, modules_nodup_library, _, ofDocument_eq validate_library, ?_, ?_⟩
  · have hkey : (⟨"research_id", "research", "id"⟩ : ForeignKey) ∈ news.foreignKeys := by decide
    have hleads : LeadsTo none library news _ research := .belongsTo hkey rfl
    refine ⟨told none library news, List.mem_map_of_mem (by decide), _, belongsTo_mem_told hkey,
      rfl, hleads, ?_⟩
    rw [hmodules, hleads.subject_eq]
    decide +kernel
  · have hreference : (news, (⟨"human_id", "humans", "id"⟩ : ForeignKey)) ∈
        references library humans.name := by decide
    obtain ⟨-, hjoin, hkey, hname⟩ := mem_references_iff.1 hreference
    have hleads : LeadsTo none library humans _ news := .inverse hjoin hkey hname
    refine ⟨told none library humans, List.mem_map_of_mem (by decide), _,
      inverse_mem_told hreference, ?_, hleads, ?_⟩
    · rw [kind_toldKeyed]
      decide
    · rintro ⟨⟨entity, hmem, htable, hmodule⟩, -⟩
      obtain ⟨table, -, rfl⟩ := List.mem_map.1 hmem
      have hsame : qualified none "humans" = qualified none "news" := by
        rw [hleads.subject_eq] at hmodule
        exact (congrArg (qualified none) htable).symm.trans hmodule
      exact absurd hsame (by decide +kernel)

end Entity
end Scaffold
