import Mathlib.Data.List.Permutation
import Scaffold.Proofs.Disambiguation.ListOrder
import Scaffold.Proofs.Entity.Construction

/-!
Schemas that list the same things in another order have the same entities, up to the order of the
declarations. Names are no exception: `build_relisted` has the declarations with the names that the
passes give them.
-/
namespace Scaffold

/-- A table with its columns and keys in another order. -/
structure Table.Relisted (table other : Table) : Prop where
  name_eq : table.name = other.name
  columns : table.columns.Perm other.columns
  foreignKeys : table.foreignKeys.Perm other.foreignKeys

/-- Tables in another order, each of them with its columns and keys in another order. -/
def Schema.Relisted (schema other : Schema) : Prop :=
  ∃ tables, List.Forall₂ Table.Relisted schema.tables tables ∧ tables.Perm other.tables

namespace Table.Relisted

variable {table other : Table}

theorem contains_keyColumns (h : table.Relisted other) (column : String) :
    table.keyColumns.contains column = other.keyColumns.contains column :=
  (h.foreignKeys.map _).contains_eq

theorem onlyJoins_eq (h : table.Relisted other) : table.onlyJoins = other.onlyJoins := by
  rw [Table.onlyJoins, Table.onlyJoins, h.columns.all_eq]
  apply congrArg
  funext column
  rw [h.contains_keyColumns]

theorem joinKeys?_of_length_ne (h : table.foreignKeys.length ≠ 2) : table.joinKeys? = none := by
  rw [Table.joinKeys?]
  split
  · next hkeys => simp [hkeys] at h
  · rfl

/-- A join table stays one, and its keys at most change places. -/
theorem joinKeys?_eq (h : table.Relisted other) :
    other.joinKeys? = table.joinKeys? ∨
      ∃ first second, table.joinKeys? = some (first, second) ∧
        other.joinKeys? = some (second, first) := by
  by_cases hlength : table.foreignKeys.length = 2
  · obtain ⟨first, second, hkeys⟩ := List.length_eq_two.1 hlength
    have hperm := h.foreignKeys
    rw [hkeys, List.pair_perm] at hperm
    rcases hperm with hother | hother
    · left
      rw [Table.joinKeys?, Table.joinKeys?, hkeys, hother, h.onlyJoins_eq]
    · by_cases hjoins : table.onlyJoins = true
      · right
        refine ⟨first, second, ?_, ?_⟩
        · simp [Table.joinKeys?, hkeys, hjoins]
        · simp [Table.joinKeys?, hother, ← h.onlyJoins_eq, hjoins]
      · left
        simp [Table.joinKeys?, hkeys, hother, ← h.onlyJoins_eq, hjoins]
  · left
    have hlength' : other.foreignKeys.length ≠ 2 := by rwa [← h.foreignKeys.length_eq]
    rw [joinKeys?_of_length_ne hlength, joinKeys?_of_length_ne hlength']

theorem isJoin_eq (h : table.Relisted other) : table.isJoin = other.isJoin := by
  rcases h.joinKeys?_eq with hkeys | ⟨first, second, hkeys, hother⟩
  · rw [Table.isJoin, Table.isJoin, hkeys]
  · rw [Table.isJoin, Table.isJoin, hkeys, hother]
    rfl

end Table.Relisted

namespace Schema.Relisted

variable {schema other : Schema}

theorem exists_relisted (h : schema.Relisted other) {table : Table}
    (htable : table ∈ schema.tables) : ∃ same ∈ other.tables, table.Relisted same := by
  obtain ⟨tables, hsame, hperm⟩ := h
  obtain ⟨i, hi, rfl⟩ := List.getElem_of_mem htable
  have hlength := hsame.length_eq
  have hi' : i < tables.length := by omega
  exact ⟨tables[i], hperm.mem_iff.1 (List.getElem_mem hi'), hsame.get hi hi'⟩

theorem flatMap_perm {α : Type} {f : Table → List α} (h : schema.Relisted other)
    (hf : ∀ table same : Table, table.Relisted same → (f table).Perm (f same)) :
    (schema.tables.flatMap f).Perm (other.tables.flatMap f) := by
  have hlisted : ∀ tables others : List Table, List.Forall₂ Table.Relisted tables others →
      (tables.flatMap f).Perm (others.flatMap f) := by
    intro tables others hsame
    induction hsame with
    | nil => exact .refl _
    | cons hhead _ ih =>
      rw [List.flatMap_cons, List.flatMap_cons]
      exact (hf _ _ hhead).append ih
  obtain ⟨tables, hsame, hperm⟩ := h
  exact (hlisted _ _ hsame).trans (hperm.flatMap_right f)

end Schema.Relisted

namespace Entity

variable {path : Option String} {schema other : Schema} {table same : Table}

theorem fields_relisted (h : table.Relisted same) : (fields table).Perm (fields same) := by
  have hkeep : (fun column : Column => !table.keyColumns.contains column.name) =
      fun column => !same.keyColumns.contains column.name := by
    funext column
    rw [h.contains_keyColumns]
  rw [fields, fields, hkeep]
  exact (h.columns.filter _).map _

theorem inverse_relisted {source source' : Table} (h : source.Relisted source')
    (path : Option String) (name : String) :
    inverse path name source = inverse path name source' := by
  funext key
  simp only [inverse, h.columns.any_eq, h.name_eq]

theorem inverses_eq_flatMap (path : Option String) (schema : Schema) (name : String) :
    ((references schema name).map fun (source, key) => inverse path name source key) =
      schema.tables.flatMap fun source => if source.isJoin then [] else
        (source.foreignKeys.filter fun key => key.referencedTable == name).map
          (inverse path name source) := by
  rw [references, List.map_flatMap]
  induction schema.tables with
  | nil => rfl
  | cons source tables ih =>
    rw [List.flatMap_cons, ← ih]
    cases hjoin : source.isJoin <;>
      simp [hjoin, List.map_map, Function.comp_def]

theorem inverses_relisted (h : schema.Relisted other) (path : Option String) (name : String) :
    ((references schema name).map fun (source, key) => inverse path name source key).Perm
      ((references other name).map fun (source, key) => inverse path name source key) := by
  rw [inverses_eq_flatMap, inverses_eq_flatMap]
  apply h.flatMap_perm
  intro source source' hsource
  rw [← hsource.isJoin_eq, ← inverse_relisted hsource]
  split
  · exact .refl _
  · exact (hsource.foreignKeys.filter _).map _

theorem joined_relisted (h : schema.Relisted other) (hname : table.name = same.name)
    (path : Option String) : (joined path schema table).Perm (joined path other same) := by
  rw [joined, joined, joinEnds, joinEnds, List.map_flatMap, List.map_flatMap, hname]
  apply h.flatMap_perm
  intro join join' hjoin
  have hdeclared : manyToMany path same.name join = manyToMany path same.name join' := by
    funext owning other
    rw [manyToMany, manyToMany, hjoin.name_eq]
  rcases hjoin.joinKeys?_eq with hkeys | ⟨first, second, hkeys, hkeys'⟩
  · rw [hkeys]
    cases join.joinKeys? with
    | none => exact .refl _
    | some keys =>
      simp only [List.map_map, Function.comp_def, hdeclared]
      exact .refl _
  · rw [hkeys, hkeys']
    simp only [List.map_map, Function.comp_def, hdeclared]
    exact ((List.Perm.swap (second, first) (first, second) []).filter _).map _

theorem keyed_relisted (h : schema.Relisted other) (htable : table.Relisted same)
    (path : Option String) : (keyed path schema table).Perm (keyed path other same) := by
  rw [keyed, keyed, htable.name_eq]
  have hown := (fields_relisted htable).append (htable.foreignKeys.map (belongsTo path))
  exact hown.append (inverses_relisted h path same.name)

/-- Aliases hang on which names collide, and so not on the order either. -/
theorem told_relisted (h : schema.Relisted other) (htable : table.Relisted same)
    (path : Option String) :
    (told path schema table).declarations.Perm (told path other same).declarations := by
  have hkeyed := Disambiguation.byKey_congr (keyed_relisted h htable path)
  have hjoined := joined_relisted h htable.name_eq path
  have htold : toldJoined path schema table = toldJoined path other same := by
    funext declaration
    have hmerged : (merged path schema table).Perm (merged path other same) :=
      hkeyed.append hjoined
    rw [toldJoined, toldJoined, Disambiguation.joinAlias?_perm hmerged]
  rw [told, told, htold]
  exact hkeyed.append (hjoined.map _)

/-- Two documents that list the same things give each table the same entity, up to the order of its
declarations. -/
theorem build_relisted {document document' : Document}
    (hschema : Schema.validate document = .ok schema)
    (hother : Schema.validate document' = .ok other) (hlisted : schema.Relisted other)
    (path : Option String) (htable : table ∈ schema.tables) :
    ∃ entity entity', build path schema table.name = .ok entity ∧
      build path other table.name = .ok entity' ∧ entity.table = entity'.table ∧
      entity.moduleName = entity'.moduleName ∧
      entity.declarations.Perm entity'.declarations := by
  obtain ⟨same, hsame, hrelisted⟩ := hlisted.exists_relisted htable
  have hbuild : build path schema table.name = .ok (told path schema table) :=
    build_eq (Schema.validate_valid hschema) htable
  have hbuild' : build path other table.name = .ok (told path other same) := by
    rw [hrelisted.name_eq]
    exact build_eq (Schema.validate_valid hother) hsame
  refine ⟨_, _, hbuild, hbuild', hrelisted.name_eq, ?_, told_relisted hlisted hrelisted path⟩
  exact congrArg (qualified path) hrelisted.name_eq

def circleRelisted : Schema where
  tables := [follows, proofs, humans].map fun table =>
    ⟨table.name, table.columns.reverse, table.foreignKeys.reverse⟩

theorem relisted_circle : circle.Relisted circleRelisted := by
  refine ⟨circle.tables.map fun table =>
    ⟨table.name, table.columns.reverse, table.foreignKeys.reverse⟩, ?_, ?_⟩
  · rw [List.forall₂_map_right_iff, List.forall₂_same]
    intro table _
    exact ⟨rfl, (List.reverse_perm _).symm, (List.reverse_perm _).symm⟩
  · exact (List.reverse_perm circle.tables).symm.map _

theorem build_relisted_circle :
    Schema.validate circle.toDocument = .ok circle ∧
      Schema.validate circleRelisted.toDocument = .ok circleRelisted ∧
      circle.Relisted circleRelisted ∧ humans ∈ circle.tables ∧
      ∃ entity entity', build none circle humans.name = .ok entity ∧
        build none circleRelisted humans.name = .ok entity' ∧ entity.table = entity'.table ∧
        entity.moduleName = entity'.moduleName ∧
        entity.declarations.Perm entity'.declarations := by
  have hother : Schema.validate circleRelisted.toDocument = .ok circleRelisted := by rfl
  have htable : humans ∈ circle.tables := List.mem_cons_self
  exact ⟨validate_circle, hother, relisted_circle, htable,
    build_relisted validate_circle hother relisted_circle none htable⟩

end Entity
end Scaffold
