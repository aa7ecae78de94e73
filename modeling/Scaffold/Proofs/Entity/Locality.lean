import Scaffold.Proofs.Entity.Origins

/-!
What the entity of a table hangs on: the table itself and the tables that have a foreign key to it.
No other table has a part in it, be it a join table or not, and nothing is asked of the schema, so
that its names may be repeated and its keys may lead nowhere.
-/
namespace Scaffold

def Table.refersTo (table : Table) (name : String) : Bool :=
  table.foreignKeys.any fun key => key.referencedTable == name

/-- The tables that have a foreign key to a table of a name. -/
def Schema.referring (schema : Schema) (name : String) : List Table :=
  schema.tables.filter fun table => table.refersTo name

theorem Table.referencedTable_ne {table : Table} {name : String}
    (h : table.refersTo name = false) : ∀ key ∈ table.foreignKeys, key.referencedTable ≠ name := by
  simpa [refersTo] using h

namespace Entity

variable {path : Option String} {schema other : Schema} {table : Table} {name : String}

theorem references_eq_of_referring (h : other.referring name = schema.referring name) :
    references other name = references schema name := by
  have hreferring : ∀ schema : Schema, references schema name =
      ((schema.referring name).filter fun table => !table.isJoin).flatMap fun table =>
        (table.foreignKeys.filter fun key => key.referencedTable == name).map (table, ·) := by
    intro schema
    rw [references, Schema.referring, List.filter_comm]
    symm
    apply flatMap_filter_of_eq_nil
    intro table _ hrefers
    simpa using Table.referencedTable_ne hrefers
  rw [hreferring, hreferring, h]

theorem joinEnds_eq_of_referring (h : other.referring name = schema.referring name) :
    joinEnds other name = joinEnds schema name := by
  have hreferring : ∀ schema : Schema, joinEnds schema name =
      ((schema.referring name).filter fun join => join.isJoin).flatMap fun join =>
        (join.ends.filter fun ends => ends.1.referencedTable == name).map (join, ·) := by
    intro schema
    rw [joinEnds_eq, Schema.referring, List.filter_comm]
    symm
    apply flatMap_filter_of_eq_nil
    intro join _ hrefers
    rw [List.map_eq_nil_iff, List.filter_eq_nil_iff]
    intro ends hends
    have howning : ends.1 ∈ join.foreignKeys := (List.of_mem_zip hends).1
    simpa using Table.referencedTable_ne hrefers ends.1 howning
  rw [hreferring, hreferring, h]

theorem told_eq_of_referring (path : Option String)
    (h : other.referring table.name = schema.referring table.name) :
    told path other table = told path schema table := by
  have hkeyed : keyed path other table = keyed path schema table := by
    rw [keyed, keyed, references_eq_of_referring h]
  have hjoined : joined path other table = joined path schema table := by
    rw [joined, joined, joinEnds_eq_of_referring h]
  have htold : toldJoined path other table = toldJoined path schema table := by
    funext declaration
    rw [toldJoined, toldJoined, merged, merged, hkeyed, hjoined]
  rw [told, told, hkeyed, hjoined, htold]

end Entity

/-- A table that has nothing to do with the table of a name. -/
structure Table.Unrelated (name : String) (table : Table) : Prop where
  name_ne : table.name ≠ name
  refersTo_eq : table.refersTo name = false

namespace Schema

variable {name : String} {before between after : List Table}

theorem referring_of_unrelated (h : ∀ table ∈ between, table.Unrelated name) :
    referring ⟨before ++ between ++ after⟩ name = referring ⟨before ++ after⟩ name := by
  have hnone : (between.filter fun table => table.refersTo name) = [] := by
    rw [List.filter_eq_nil_iff]
    intro table htable
    simp [(h table htable).refersTo_eq]
  simp [referring, hnone]

theorem table?_of_unrelated (h : ∀ table ∈ between, table.Unrelated name) :
    table? ⟨before ++ between ++ after⟩ name = table? ⟨before ++ after⟩ name := by
  have hnone : (between.find? fun table => table.name == name) = none := by
    rw [List.find?_eq_none]
    intro table htable
    simp [(h table htable).name_ne]
  simp [table?, List.find?_append, hnone]

end Schema

namespace Entity

variable {path : Option String} {schema : Schema} {table : Table}

/-- The first table of a name has an entity, and it has the same one in every other schema in which
it is the first of its name too and the same tables refer to it. So it keeps its entity when tables
that have nothing to do with it are taken away and others put in their place. -/
theorem build_local (path : Option String) (hfirst : schema.table? table.name = some table) :
    ∃ entity, build path schema table.name = .ok entity ∧
      (∀ other : Schema, other.table? table.name = some table →
        other.referring table.name = schema.referring table.name →
        build path other table.name = .ok entity) ∧
      ∀ before removed added after, schema.tables = before ++ removed ++ after →
        (∀ other ∈ removed, other.Unrelated table.name) →
        (∀ other ∈ added, other.Unrelated table.name) →
        build path ⟨before ++ added ++ after⟩ table.name = .ok entity := by
  have hsame : ∀ other : Schema, other.table? table.name = some table →
      other.referring table.name = schema.referring table.name →
      build path other table.name = .ok (told path schema table) := by
    intro other hother hreferring
    rw [build_eq_of_table? hother, told_eq_of_referring path hreferring]
  refine ⟨told path schema table, build_eq_of_table? hfirst, hsame, ?_⟩
  intro before removed added after htables hremoved hadded
  obtain rfl : schema = ⟨before ++ removed ++ after⟩ := congrArg Schema.mk htables
  rw [Schema.table?_of_unrelated hremoved] at hfirst
  apply hsame
  · rw [Schema.table?_of_unrelated hadded, hfirst]
  · rw [Schema.referring_of_unrelated hadded, Schema.referring_of_unrelated hremoved]

def nodes : Table where
  name := "nodes"
  columns := [{ name := "id", type := "uuid" }, { name := "parent_id", type := "uuid" }]
  foreignKeys := [⟨"parent_id", "nodes", "id"⟩]

def labellings : Table where
  name := "labellings"
  columns := [{ name := "node_id", type := "uuid" }, { name := "label_id", type := "uuid" }]
  foreignKeys := [⟨"node_id", "nodes", "id"⟩, ⟨"label_id", "labels", "id"⟩]

def labels : Table where
  name := "labels"
  columns := [{ name := "id", type := "uuid" }, { name := "colour_id", type := "uuid" }]
  foreignKeys := [⟨"colour_id", "colours", "id"⟩]

def forest : Schema where
  tables := [labels, nodes, ⟨"colours", [{ name := "id", type := "uuid" }], []⟩, labellings]

def clearing : Schema where
  tables := [nodes, labellings, ⟨"nodes", [{ name := "body", type := "text" }], []⟩]

theorem build_local_forest :
    forest.table? nodes.name = some nodes ∧ clearing.table? nodes.name = some nodes ∧
      clearing.referring nodes.name = forest.referring nodes.name ∧ labels.Unrelated nodes.name ∧
      ∃ entity, build (some "App") forest nodes.name = .ok entity ∧
        build (some "App") clearing nodes.name = .ok entity ∧
        build (some "App") ⟨forest.tables.tail⟩ nodes.name = .ok entity := by
  have hfirst : forest.table? nodes.name = some nodes := by decide
  have hother : clearing.table? nodes.name = some nodes := by decide
  have hreferring : clearing.referring nodes.name = forest.referring nodes.name := by decide
  have hlabels : labels.Unrelated nodes.name := ⟨by decide, by decide⟩
  obtain ⟨entity, hentity, hsame, hreplaced⟩ := build_local (some "App") hfirst
  refine ⟨hfirst, hother, hreferring, hlabels, entity, hentity, hsame _ hother hreferring, ?_⟩
  exact hreplaced [] [labels] [] forest.tables.tail rfl (by simpa using hlabels) (by simp)

end Entity
end Scaffold
