import Scaffold.Proofs.Config.ModulePath
import Scaffold.Proofs.Declaration.Contract
import Scaffold.Proofs.Disambiguation.Nameless
import Scaffold.Proofs.Entity.Targets

/-!
Which declarations of an entity keep the contract. The subjects and options that are derived from a
valid schema always do, and so do the names of fields and of associations by join tables. What can
break it is the name of an association by a key, where the column or the table leaves nothing to
make it of: the singular of `s` is empty, and so is `_id` without the ending of keys.
-/
namespace Scaffold

namespace Entity

open Disambiguation

variable {path : String} {schema : Schema} {table : Table} {declaration : Declaration}

theorem qualified_ne_empty (h : path ≠ "") (table : String) : qualified (some path) table ≠ "" := by
  have hqualified : qualified (some path) table = path ++ "." ++ Naming.moduleName table := by
    simp [qualified]
  rw [hqualified]
  simp

theorem ne_empty_of_mem_unless {column default : String} (h : column ≠ "") :
    ∀ value ∈ (if column = default then none else some column), value ≠ "" := by
  intro value hvalue
  split at hvalue
  · cases hvalue
  · obtain rfl := Option.some.inj hvalue
    exact h

theorem fits_keyOptions {kind : Kind} (hkind : kind = .belongsTo ∨ kind = .hasMany ∨ kind = .hasOne)
    {key : ForeignKey} (hkey : key.Named) (default : String) :
    (keyOptions key default).Fits kind :=
  .keyed hkind (ne_empty_of_mem_unless hkey.1) (ne_empty_of_mem_unless hkey.2.2)

theorem subject_ne_empty_of_mem_keyed (hpath : path ≠ "") (hvalid : schema.Valid)
    (htable : table ∈ schema.tables) (h : declaration ∈ keyed (some path) schema table) :
    declaration.subject ≠ "" := by
  rcases mem_keyed_iff.1 h with ⟨column, hcolumn, -, rfl⟩ | ⟨key, -, rfl⟩ |
    ⟨source, -, -, key, -, -, rfl⟩
  · have hnamed := (hvalid.tables_valid table htable).columns_named column hcolumn
    exact Naming.fieldType_ne_empty hnamed.2
  · exact qualified_ne_empty hpath key.referencedTable
  · exact qualified_ne_empty hpath source.name

theorem fits_of_mem_keyed (hvalid : schema.Valid) (htable : table ∈ schema.tables)
    (h : declaration ∈ keyed (some path) schema table) :
    declaration.options.Fits declaration.kind := by
  rcases mem_keyed_iff.1 h with ⟨column, -, -, rfl⟩ | ⟨key, hkey, rfl⟩ |
    ⟨source, hsource, -, key, hkey, -, rfl⟩
  · exact .field column.enumValues
  · have hnamed := (hvalid.tables_valid table htable).keys_named key hkey
    exact fits_keyOptions (.inl rfl) hnamed _
  · have hnamed := (hvalid.tables_valid source hsource).keys_named key hkey
    refine fits_keyOptions (.inr ?_) hnamed _
    simp only [inverse]
    split
    · exact .inr rfl
    · exact .inl rfl

theorem fits_manyToMany {name : String} {join : Table} {owning other : ForeignKey}
    (hname : name ≠ "") (hjoin : join.name ≠ "") (howning : owning.Named) (hother : other.Named) :
    (manyToMany (some path) name join owning other).options.Fits .manyToMany := by
  refine .manyToMany (ne_empty_of_mem_unless howning.1) ?_ ?_
  · intro joinTable htable
    obtain rfl := Option.some.inj htable
    exact hjoin
  · intro keys hkeys
    split at hkeys
    · cases hkeys
    · obtain rfl := Option.some.inj hkeys
      exact ⟨_, _, rfl, ⟨howning.1, hname⟩, hother.1, hother.2.1⟩

theorem subject_ne_empty_of_mem_joined (hpath : path ≠ "")
    (h : declaration ∈ joined (some path) schema table) : declaration.subject ≠ "" := by
  obtain ⟨join, -, -, owning, other, -, -, rfl⟩ := mem_joined_iff.1 h
  exact qualified_ne_empty hpath other.referencedTable

theorem fits_of_mem_joined (hvalid : schema.Valid) (htable : table ∈ schema.tables)
    (h : declaration ∈ joined (some path) schema table) :
    declaration.options.Fits declaration.kind := by
  obtain ⟨join, hjoin, -, owning, other, hends, -, rfl⟩ := mem_joined_iff.1 h
  have hkeys := (hvalid.tables_valid join hjoin).keys_named
  have howning : owning ∈ join.foreignKeys := (List.of_mem_zip hends).1
  have hother : other ∈ join.foreignKeys := mem_foreignKeys_of_mem_ends hends
  exact fits_manyToMany (hvalid.tables_valid table htable).name_ne
    (hvalid.tables_valid join hjoin).name_ne (hkeys owning howning) (hkeys other hother)

theorem name_ne_empty_of_mem_joined (hvalid : schema.Valid)
    (h : declaration ∈ joined (some path) schema table) : declaration.name ≠ "" := by
  obtain ⟨join, hjoin, -, owning, other, hends, -, rfl⟩ := mem_joined_iff.1 h
  have hother : other ∈ join.foreignKeys := mem_foreignKeys_of_mem_ends hends
  have hnamed := (hvalid.tables_valid join hjoin).keys_named other hother
  intro hempty
  exact hnamed.2.1 (Inflection.plural_eq_empty_iff.1 hempty)

theorem name_toldJoined_ne_empty (hvalid : schema.Valid)
    (h : declaration ∈ joined (some path) schema table) :
    (toldJoined (some path) schema table declaration).name ≠ "" := by
  rw [toldJoined, Declaration.name_under]
  cases halias : joinAlias? (merged (some path) schema table) declaration with
  | none => exact name_ne_empty_of_mem_joined hvalid h
  | some name => exact joinAlias?_ne_empty halias

/-- A declaration of an entity keeps the contract exactly if it has a name. -/
theorem keepsContract_told_iff (hpath : path ≠ "") (hvalid : schema.Valid)
    (htable : table ∈ schema.tables)
    (h : declaration ∈ (told (some path) schema table).declarations) :
    declaration.KeepsContract ↔ declaration.name ≠ "" := by
  rcases mem_told_iff.1 h with ⟨original, hmem, rfl⟩ | ⟨original, hmem, rfl⟩
  · have hsubject := subject_ne_empty_of_mem_keyed hpath hvalid htable hmem
    have hoptions := fits_of_mem_keyed hvalid htable hmem
    exact Declaration.keepsContract_iff hsubject hoptions
  · have hsubject := subject_ne_empty_of_mem_joined hpath hmem
    have hoptions := fits_of_mem_joined hvalid htable hmem
    exact Declaration.keepsContract_iff hsubject hoptions

theorem names_told_ne_empty_iff (hvalid : schema.Valid) (htable : table ∈ schema.tables) :
    (∀ declaration ∈ (told (some path) schema table).declarations, declaration.name ≠ "") ↔
      ∀ original ∈ keyed (some path) schema table,
        ¬Nameless (keyed (some path) schema table) original := by
  have hname : ∀ original ∈ keyed (some path) schema table,
      ((toldKeyed (some path) schema table original).name = "" ↔
        Nameless (keyed (some path) schema table) original) := by
    intro original hmem
    exact name_renamed_eq_empty_iff (fits_of_mem_keyed hvalid htable hmem).key_ne_empty
  constructor
  · intro hnames original hmem hnameless
    have htold : toldKeyed (some path) schema table original ∈
        (told (some path) schema table).declarations := mem_told_iff.2 (.inl ⟨original, hmem, rfl⟩)
    exact hnames _ htold ((hname original hmem).2 hnameless)
  · intro hnone declaration hdeclaration
    rcases mem_told_iff.1 hdeclaration with ⟨original, hmem, rfl⟩ | ⟨original, hmem, rfl⟩
    · intro hempty
      exact hnone original hmem ((hname original hmem).1 hempty)
    · exact name_toldJoined_ne_empty hvalid hmem

/-- All declarations of all entities keep the contract exactly if each has a name from the start or
is given one by the pass by keys. -/
theorem keepsContract_all_iff (hpath : path ≠ "") (hvalid : schema.Valid) :
    (∀ entity ∈ (schema.tables.filter fun table => !table.isJoin).map (told (some path) schema),
        ∀ declaration ∈ entity.declarations, declaration.KeepsContract) ↔
      ∀ table ∈ schema.tables, table.isJoin = false →
        ∀ original ∈ keyed (some path) schema table,
          ¬Nameless (keyed (some path) schema table) original := by
  constructor
  · intro hall table htable hjoin
    have hmem : table ∈ schema.tables.filter fun table => !table.isJoin := by
      simp [htable, hjoin]
    have hentity := hall _ (List.mem_map_of_mem hmem)
    rw [← names_told_ne_empty_iff hvalid htable]
    intro declaration hdeclaration
    exact (keepsContract_told_iff hpath hvalid htable hdeclaration).1
      (hentity declaration hdeclaration)
  · intro hnone entity hentity declaration hdeclaration
    obtain ⟨table, hmem, rfl⟩ := List.mem_map.1 hentity
    have htable := List.mem_of_mem_filter hmem
    have hjoin : table.isJoin = false := by simpa using (List.mem_filter.1 hmem).2
    have hnames := (names_told_ne_empty_iff hvalid htable).2 (hnone table htable hjoin)
    exact (keepsContract_told_iff hpath hvalid htable hdeclaration).2
      (hnames declaration hdeclaration)

/-- The columns that leave nothing to name a `belongsTo` association after. -/
def bareColumns : List String := ["_id", "s", "S", "s_id", "S_id"]

theorem mem_bareColumns_of_name_eq_empty {key : ForeignKey} (hkey : key.column ≠ "")
    (h : (belongsTo (some path) key).name = "") : key.column ∈ bareColumns := by
  have hstem := Inflection.singular_eq_empty_iff.1 h
  rcases Naming.eq_or_eq_append_of_stripKeySuffix key.column with hcolumn | hcolumn
  · rw [← hcolumn] at hstem
    rcases hstem with hstem | hstem | hstem
    · exact absurd hstem hkey
    · simp [hstem, bareColumns]
    · simp [hstem, bareColumns]
  · rw [hcolumn]
    rcases hstem with hstem | hstem | hstem <;> rw [hstem] <;> decide

/-- The plain names of a schema: no key column that is bare and no table named `s` or `S`. -/
structure Plain (schema : Schema) : Prop where
  columns : ∀ table ∈ schema.tables, ∀ key ∈ table.foreignKeys, key.column ∉ bareColumns
  tables : ∀ table ∈ schema.tables, table.name ≠ "s" ∧ table.name ≠ "S"

theorem Plain.name_ne_empty (hplain : Plain schema) (hvalid : schema.Valid)
    (htable : table ∈ schema.tables) (h : declaration ∈ keyed (some path) schema table) :
    declaration.name ≠ "" := by
  rcases mem_keyed_iff.1 h with ⟨column, hcolumn, -, rfl⟩ | ⟨key, hkey, rfl⟩ |
    ⟨source, hsource, -, key, -, -, rfl⟩
  · exact ((hvalid.tables_valid table htable).columns_named column hcolumn).1
  · intro hempty
    have hnamed := (hvalid.tables_valid table htable).keys_named key hkey
    exact hplain.columns table htable key hkey (mem_bareColumns_of_name_eq_empty hnamed.1 hempty)
  · have hne := (hvalid.tables_valid source hsource).name_ne
    have hplural : Inflection.plural source.name ≠ "" := by
      simpa [Inflection.plural_eq_empty_iff] using hne
    have hsingular : Inflection.singular source.name ≠ "" := by
      simp [Inflection.singular_eq_empty_iff, hne, hplain.tables source hsource]
    simp only [inverse]
    split
    · exact hsingular
    · exact hplural

theorem column_eq_of_key_keyOptions {key : ForeignKey} {default column : String}
    (h : (keyOptions key default).key = some column) : key.column = column := by
  by_cases hdefault : key.column = default
  · simp [keyOptions, hdefault] at h
  · simpa [keyOptions, hdefault] using h

theorem exists_key_of_mem_keyed (htable : table ∈ schema.tables)
    (h : declaration ∈ keyed (some path) schema table) {column : String}
    (hcolumn : declaration.options.key = some column) :
    ∃ source ∈ schema.tables, ∃ key ∈ source.foreignKeys, key.column = column := by
  rcases mem_keyed_iff.1 h with ⟨column, -, -, rfl⟩ | ⟨key, hkey, rfl⟩ |
    ⟨source, hsource, -, key, hkey, -, rfl⟩
  · cases hcolumn
  · exact ⟨table, htable, key, hkey, column_eq_of_key_keyOptions hcolumn⟩
  · exact ⟨source, hsource, key, hkey, column_eq_of_key_keyOptions hcolumn⟩

theorem Plain.not_nameless (hplain : Plain schema) (hvalid : schema.Valid)
    (htable : table ∈ schema.tables) {among : List Declaration}
    (h : declaration ∈ keyed (some path) schema table) : ¬Nameless among declaration := by
  intro hnameless
  cases hnameless with
  | kept hname hgiven => exact hplain.name_ne_empty hvalid htable h hname
  | given hcollides hkind hcolumn hname =>
    obtain ⟨source, hsource, key, hkey, hbare⟩ := exists_key_of_mem_keyed htable h hcolumn
    refine hplain.columns source hsource key hkey ?_
    rw [hbare]
    decide

/-- What is derived from a valid schema keeps the contract but for names that are missing, which
are those that the pass by keys leaves out; under plain names it leaves out none. -/
theorem ofDocument_keepsContract_iff {document : Document} {environment : Environment}
    {config : Config} (hschema : Schema.validate document = .ok schema)
    (hconfig : Config.load environment = .ok config) :
    ∃ entities, ofDocument (some config.modulePath) document = .ok entities ∧
      (∀ entity ∈ entities, ∀ declaration ∈ entity.declarations,
        declaration.KeepsContract ↔ declaration.name ≠ "") ∧
      ((∀ entity ∈ entities, ∀ declaration ∈ entity.declarations, declaration.KeepsContract) ↔
        ∀ table ∈ schema.tables, table.isJoin = false →
          ∀ original ∈ keyed (some config.modulePath) schema table,
            ¬Nameless (keyed (some config.modulePath) schema table) original) ∧
      (Plain schema →
        ∀ entity ∈ entities, ∀ declaration ∈ entity.declarations, declaration.KeepsContract) := by
  have hvalid := Schema.validate_valid hschema
  have hpath := Config.modulePath_ne_empty hconfig
  have hall := keepsContract_all_iff hpath hvalid
  refine ⟨_, ofDocument_eq hschema, ?_, hall, ?_⟩
  · intro entity hentity declaration hdeclaration
    obtain ⟨table, hmem, rfl⟩ := List.mem_map.1 hentity
    exact keepsContract_told_iff hpath hvalid (List.mem_of_mem_filter hmem) hdeclaration
  · intro hplain
    apply hall.2
    intro table htable _ original hmem
    exact hplain.not_nameless hvalid htable hmem

theorem ofDocument_keepsContract_iff_circle :
    Schema.validate circle.toDocument = .ok circle ∧
      Config.load {} = .ok ⟨Config.standardPath, some .standard⟩ ∧
      ∃ entities, ofDocument (some Config.standardPath) circle.toDocument = .ok entities ∧
        ∀ entity ∈ entities, ∀ declaration ∈ entity.declarations, declaration.KeepsContract := by
  have hconfig : Config.load {} = .ok ⟨Config.standardPath, some .standard⟩ := by decide +kernel
  have hplain : Plain circle := ⟨by decide, by decide⟩
  obtain ⟨entities, hentities, -, -, hkeep⟩ :=
    ofDocument_keepsContract_iff validate_circle hconfig
  exact ⟨validate_circle, hconfig, entities, hentities, hkeep hplain⟩

def sizes : Table where
  name := "sizes"
  columns := [{ name := "id", type := "uuid" }]
  foreignKeys := []

def shirts : Table where
  name := "shirts"
  columns := [{ name := "id", type := "uuid" }, { name := "s_id", type := "uuid" }]
  foreignKeys := [⟨"s_id", "sizes", "id"⟩]

def wardrobe : Schema where
  tables := [sizes, shirts]

theorem validate_wardrobe : Schema.validate wardrobe.toDocument = .ok wardrobe := by rfl

theorem wardrobe_refused :
    Schema.validate wardrobe.toDocument = .ok wardrobe ∧
      Config.load {} = .ok ⟨Config.standardPath, some .standard⟩ ∧
      ∃ entities, ofDocument (some Config.standardPath) wardrobe.toDocument = .ok entities ∧
        ∃ entity ∈ entities, ∃ declaration ∈ entity.declarations,
          declaration.kind = .belongsTo ∧ declaration.name = "" ∧
            (Declaration.check (some declaration.toDocument)).result =
              .error ⟨⟨[.key "name"], .emptyText⟩, []⟩ := by
  have hkey : (⟨"s_id", "sizes", "id"⟩ : ForeignKey) ∈ shirts.foreignKeys := by decide
  have htold : told (some Config.standardPath) wardrobe shirts ∈
      (wardrobe.tables.filter fun table => !table.isJoin).map
        (told (some Config.standardPath) wardrobe) := List.mem_map_of_mem (by decide)
  refine ⟨validate_wardrobe, by decide +kernel, _, ofDocument_eq validate_wardrobe,
    told (some Config.standardPath) wardrobe shirts, htold, _, belongsTo_mem_told hkey, rfl, ?_, ?_⟩
  · decide +kernel
  · decide +kernel

end Entity
end Scaffold
