import Scaffold.Document.Basic

/-!
Database schemas: tables with their columns and foreign keys.
-/
namespace Scaffold

structure Column where
  name : String
  type : String
  /-- Whether a unique constraint covers exactly this column. -/
  unique : Option Bool := none
  /-- The values of a column of an enumerated type. -/
  enumValues : Option (List String) := none
  deriving DecidableEq, Repr

def Column.isUnique (column : Column) : Bool := column.unique == some true

structure ForeignKey where
  column : String
  referencedTable : String
  referencedColumn : String
  deriving DecidableEq, Repr

structure Table where
  name : String
  columns : List Column
  foreignKeys : List ForeignKey
  deriving DecidableEq, Repr

structure Schema where
  tables : List Table
  deriving DecidableEq, Repr

namespace Table

def columnNames (table : Table) : List String := table.columns.map (·.name)

def keyColumns (table : Table) : List String := table.foreignKeys.map (·.column)

/-- Columns that a join table may have beside its two keys. -/
def bookkeeping : List String := ["id", "inserted_at", "updated_at"]

def onlyJoins (table : Table) : Bool :=
  table.columns.all fun column =>
    table.keyColumns.contains column.name || bookkeeping.contains column.name

/-- The two keys of a table that does nothing but join two tables. -/
def joinKeys? (table : Table) : Option (ForeignKey × ForeignKey) :=
  match table.foreignKeys with
  | [first, second] => if table.onlyJoins then some (first, second) else none
  | _ => none

def isJoin (table : Table) : Bool := table.joinKeys?.isSome

theorem isJoin_iff (table : Table) :
    table.isJoin = true ↔ table.foreignKeys.length = 2 ∧
      ∀ column ∈ table.columns, column.name ∈ table.keyColumns ∨ column.name ∈ bookkeeping := by
  have hjoins : table.onlyJoins = true ↔ ∀ column ∈ table.columns,
      column.name ∈ table.keyColumns ∨ column.name ∈ bookkeeping := by
    simp [onlyJoins]
  rw [← hjoins, isJoin, joinKeys?]
  split
  · next h => simp [h, Option.isSome_ite]
  · next h =>
    simp only [Option.isSome_none, Bool.false_eq_true, false_iff, not_and]
    intro hlength
    match hkeys : table.foreignKeys with
    | [first, second] => exact absurd hkeys (h first second)
    | [] | [_] | _ :: _ :: _ :: _ => simp [hkeys] at hlength

end Table

namespace Schema

def tableNames (schema : Schema) : List String := schema.tables.map (·.name)

def table? (schema : Schema) (name : String) : Option Table :=
  schema.tables.find? fun table => table.name == name

end Schema

def Column.toDocument (column : Column) : Document :=
  .object (
    [("name", .text column.name), ("type", .text column.type)] ++
    (column.unique.map fun unique => ("unique", Document.bool unique)).toList ++
    (column.enumValues.map fun values => ("enumValues", Document.texts values)).toList)

def ForeignKey.toDocument (key : ForeignKey) : Document :=
  .object [("column", .text key.column), ("referencedTable", .text key.referencedTable),
    ("referencedColumn", .text key.referencedColumn)]

def Table.toDocument (table : Table) : Document :=
  .object [("name", .text table.name), ("columns", .list (table.columns.map (·.toDocument))),
    ("foreignKeys", .list (table.foreignKeys.map (·.toDocument)))]

def Schema.toDocument (schema : Schema) : Document :=
  .object [("tables", .list (schema.tables.map (·.toDocument)))]

end Scaffold
