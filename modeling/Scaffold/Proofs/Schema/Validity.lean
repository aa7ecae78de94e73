import Mathlib.Data.List.Nodup
import Scaffold.Schema.Basic

/-!
What the schemas that pass validation have in common. Of what follows from it, the look-up of tables
by name is what the entities need.
-/
namespace Scaffold

def Column.Named (column : Column) : Prop := column.name ≠ "" ∧ column.type ≠ ""

def ForeignKey.Named (key : ForeignKey) : Prop :=
  key.column ≠ "" ∧ key.referencedTable ≠ "" ∧ key.referencedColumn ≠ ""

/-- What validation makes sure of within a table. -/
structure Table.Valid (table : Table) : Prop where
  name_ne : table.name ≠ ""
  columns_named : ∀ column ∈ table.columns, column.Named
  keys_named : ∀ key ∈ table.foreignKeys, key.Named
  keys_on_columns : ∀ key ∈ table.foreignKeys, key.column ∈ table.columnNames

/-- What validation makes sure of. -/
structure Schema.Valid (schema : Schema) : Prop where
  names_nodup : schema.tableNames.Nodup
  tables_valid : ∀ table ∈ schema.tables, table.Valid
  keys_refer : ∀ table ∈ schema.tables, ∀ key ∈ table.foreignKeys,
    key.referencedTable ∈ schema.tableNames

namespace Schema

variable {schema : Schema} {table : Table}

theorem exists_table?_eq (htable : table ∈ schema.tables) :
    ∃ found ∈ schema.tables, schema.table? table.name = some found ∧ found.name = table.name := by
  cases hfound : schema.table? table.name with
  | none =>
    have hnone := List.find?_eq_none.1 hfound table htable
    simp at hnone
  | some found =>
    have hmem := List.mem_of_find?_eq_some hfound
    have hname : found.name = table.name := by simpa using List.find?_some hfound
    exact ⟨found, hmem, rfl, hname⟩

theorem Valid.table?_name (hvalid : schema.Valid) (htable : table ∈ schema.tables) :
    schema.table? table.name = some table := by
  obtain ⟨found, hmem, hfound, hname⟩ := exists_table?_eq htable
  rw [hfound, List.inj_on_of_nodup_map hvalid.names_nodup hmem htable hname]

theorem Valid.exists_referenced (hvalid : schema.Valid)
    (htable : table ∈ schema.tables) {key : ForeignKey} (hkey : key ∈ table.foreignKeys) :
    ∃ referenced ∈ schema.tables, referenced.name = key.referencedTable :=
  List.mem_map.1 (hvalid.keys_refer table htable key hkey)

end Schema
end Scaffold
