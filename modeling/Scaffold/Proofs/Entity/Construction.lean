import Scaffold.Entity
import Scaffold.Proofs.Disambiguation.Renaming
import Scaffold.Proofs.Schema.Faults

/-!
How an entity is put together. The passes never fail on declarations that were derived from a
table, so `ofTable` gives `told`, which writes down where each declaration of the entity comes
from: fields and associations by keys come first, in the order of the pass by keys, and each
association by a join table is renamed in its place. `build_eq` and `ofDocument_eq` are the same
for schemas that pass validation.
-/
namespace Scaffold
namespace Entity

variable {path : Option String} {schema : Schema} {table : Table}

theorem kind_ne_of_mem_keyed {declaration : Declaration}
    (h : declaration ∈ keyed path schema table) : declaration.kind ≠ .manyToMany := by
  simp only [keyed, fields, List.mem_append, List.mem_map] at h
  rcases h with (⟨column, -, rfl⟩ | ⟨key, -, rfl⟩) | ⟨⟨source, key⟩, -, rfl⟩
  · simp [field]
  · simp [belongsTo]
  · simp only [inverse]
    split <;> simp

theorem joinKeys_of_mem_keyed {declaration : Declaration}
    (h : declaration ∈ keyed path schema table) : declaration.options.joinKeys = none := by
  simp only [keyed, fields, List.mem_append, List.mem_map] at h
  rcases h with (⟨column, -, rfl⟩ | ⟨key, -, rfl⟩) | ⟨⟨source, key⟩, -, rfl⟩ <;> rfl

theorem kind_of_mem_joined {declaration : Declaration}
    (h : declaration ∈ joined path schema table) : declaration.kind = .manyToMany := by
  obtain ⟨⟨join, owning, other⟩, -, rfl⟩ := List.mem_map.1 h
  rfl

theorem paired_of_mem_joined {declaration : Declaration}
    (h : declaration ∈ joined path schema table) : declaration.Paired := by
  obtain ⟨⟨join, owning, other⟩, -, rfl⟩ := List.mem_map.1 h
  intro keys hkeys
  simp only [manyToMany] at hkeys
  split at hkeys
  · cases hkeys
  · exact ⟨_, _, (Option.some.inj hkeys).symm⟩

/-- The declarations of a table before the passes by join tables. -/
def merged (path : Option String) (schema : Schema) (table : Table) : List Declaration :=
  Disambiguation.byKey (keyed path schema table) ++ joined path schema table

theorem joined_sublist_merged :
    (joined path schema table).Sublist (merged path schema table) :=
  List.sublist_append_right _ _

/-- What becomes of a field or an association by a key in the entity of its table. -/
def toldKeyed (path : Option String) (schema : Schema) (table : Table)
    (declaration : Declaration) : Declaration :=
  Disambiguation.renamed (keyed path schema table) Disambiguation.keyAlias? declaration

def toldJoined (path : Option String) (schema : Schema) (table : Table)
    (declaration : Declaration) : Declaration :=
  declaration.under (Disambiguation.joinAlias? (merged path schema table) declaration)

def told (path : Option String) (schema : Schema) (table : Table) : Entity where
  table := table.name
  moduleName := qualified path table.name
  declarations := Disambiguation.byKey (keyed path schema table) ++
    (joined path schema table).map (toldJoined path schema table)

@[simp] theorem content_toldKeyed (path : Option String) (schema : Schema) (table : Table)
    (declaration : Declaration) :
    (toldKeyed path schema table declaration).content = declaration.content := rfl
@[simp] theorem content_toldJoined (path : Option String) (schema : Schema) (table : Table)
    (declaration : Declaration) :
    (toldJoined path schema table declaration).content = declaration.content := rfl
@[simp] theorem kind_toldKeyed (path : Option String) (schema : Schema) (table : Table)
    (declaration : Declaration) :
    (toldKeyed path schema table declaration).kind = declaration.kind := rfl
@[simp] theorem kind_toldJoined (path : Option String) (schema : Schema) (table : Table)
    (declaration : Declaration) :
    (toldJoined path schema table declaration).kind = declaration.kind := rfl
@[simp] theorem subject_toldKeyed (path : Option String) (schema : Schema) (table : Table)
    (declaration : Declaration) :
    (toldKeyed path schema table declaration).subject = declaration.subject := rfl
@[simp] theorem subject_toldJoined (path : Option String) (schema : Schema) (table : Table)
    (declaration : Declaration) :
    (toldJoined path schema table declaration).subject = declaration.subject := rfl

theorem byKey_keyed_perm (path : Option String) (schema : Schema) (table : Table) :
    (Disambiguation.byKey (keyed path schema table)).Perm
      ((keyed path schema table).map (toldKeyed path schema table)) :=
  Disambiguation.byKey_perm _

theorem told_perm (path : Option String) (schema : Schema) (table : Table) :
    (told path schema table).declarations.Perm
      ((keyed path schema table).map (toldKeyed path schema table) ++
        (joined path schema table).map (toldJoined path schema table)) :=
  (byKey_keyed_perm path schema table).append_right _

theorem mem_byKey_keyed_iff {declaration : Declaration} :
    declaration ∈ Disambiguation.byKey (keyed path schema table) ↔
      ∃ original ∈ keyed path schema table,
        toldKeyed path schema table original = declaration := by
  rw [(byKey_keyed_perm path schema table).mem_iff, List.mem_map]

/-- Every declaration of an entity comes from one that its table has alone. -/
theorem mem_told_iff {declaration : Declaration} :
    declaration ∈ (told path schema table).declarations ↔
      (∃ original ∈ keyed path schema table,
        toldKeyed path schema table original = declaration) ∨
      ∃ original ∈ joined path schema table,
        toldJoined path schema table original = declaration := by
  rw [(told_perm path schema table).mem_iff, List.mem_append, List.mem_map, List.mem_map]

theorem kind_ne_of_mem_byKey {declaration : Declaration}
    (h : declaration ∈ Disambiguation.byKey (keyed path schema table)) :
    declaration.kind ≠ .manyToMany := by
  obtain ⟨original, hmem, rfl⟩ := mem_byKey_keyed_iff.1 h
  rw [kind_toldKeyed]
  exact kind_ne_of_mem_keyed hmem

theorem paired_of_mem_merged {declaration : Declaration}
    (h : declaration ∈ merged path schema table) : declaration.Paired := by
  rcases List.mem_append.1 h with h | h
  · obtain ⟨original, hmem, rfl⟩ := mem_byKey_keyed_iff.1 h
    intro keys hkeys
    have hnone : original.options.joinKeys = none := joinKeys_of_mem_keyed hmem
    have hsome : original.options.joinKeys = some keys := hkeys
    rw [hnone] at hsome
    cases hsome
  · exact paired_of_mem_joined h

theorem paired_of_mem_told {declaration : Declaration}
    (h : declaration ∈ (told path schema table).declarations) : declaration.Paired := by
  rcases List.mem_append.1 h with h | h
  · exact paired_of_mem_merged (List.mem_append_left _ h)
  · obtain ⟨original, hmem, rfl⟩ := List.mem_map.1 h
    exact (paired_of_mem_joined hmem).under _

theorem ofTable_eq (path : Option String) (schema : Schema) (table : Table) :
    ofTable path schema table = .ok (told path schema table) := by
  have hjoins : Disambiguation.byJoins (merged path schema table) =
      .ok ((merged path schema table).map (toldJoined path schema table)) :=
    Disambiguation.byJoins_eq_map fun _ => paired_of_mem_merged
  have hkeyed : (Disambiguation.byKey (keyed path schema table)).map
      (toldJoined path schema table) = Disambiguation.byKey (keyed path schema table) := by
    conv_rhs => rw [← List.map_id (Disambiguation.byKey (keyed path schema table))]
    apply List.map_congr_left
    intro declaration hmem
    rw [toldJoined, Disambiguation.joinAlias?_eq_none (kind_ne_of_mem_byKey hmem)]
    rfl
  change (Disambiguation.byJoins (merged path schema table)).map _ = _
  rw [hjoins, merged, List.map_append, hkeyed]
  rfl

/-- The first table of a name has an entity, whatever else the schema holds. -/
theorem build_eq_of_table? (h : schema.table? table.name = some table) :
    build path schema table.name = .ok (told path schema table) := by
  rw [build, h]
  change (ofTable path schema table).mapError BuildError.contract = _
  rw [ofTable_eq]
  rfl

theorem build_eq (hvalid : schema.Valid) (htable : table ∈ schema.tables) :
    build path schema table.name = .ok (told path schema table) :=
  build_eq_of_table? (hvalid.table?_name htable)

/-- The entities of a document that passes validation, in the order of its tables. -/
theorem ofDocument_eq {document : Document} (h : Schema.validate document = .ok schema) :
    ofDocument path document =
      .ok ((schema.tables.filter fun table => !table.isJoin).map (told path schema)) := by
  rw [ofDocument, h]
  change buildAll path schema = _
  apply mapM_eq_ok_map
  intro table hmem
  exact build_eq (Schema.validate_valid h) (List.mem_of_mem_filter hmem)

def humans : Table where
  name := "humans"
  columns := [{ name := "id", type := "uuid" }]
  foreignKeys := []

def proofs : Table where
  name := "proofs"
  columns := [{ name := "body", type := "text" }, { name := "author", type := "uuid" },
    { name := "author_id", type := "uuid" }]
  foreignKeys := [⟨"author", "humans", "id"⟩, ⟨"author_id", "humans", "id"⟩]

/-- Two columns hold a key of one table, and their names differ by the ending of keys alone. -/
def archive : Schema where
  tables := [humans, proofs]

theorem validate_archive : Schema.validate archive.toDocument = .ok archive := by rfl

def follows : Table where
  name := "follows"
  columns := [{ name := "follower_id", type := "uuid" }, { name := "followed_id", type := "uuid" }]
  foreignKeys := [⟨"follower_id", "humans", "id"⟩, ⟨"followed_id", "humans", "id"⟩]

/-- The same with a table that joins humans to humans. -/
def circle : Schema where
  tables := [humans, proofs, follows]

theorem validate_circle : Schema.validate circle.toDocument = .ok circle := by rfl

end Entity
end Scaffold
