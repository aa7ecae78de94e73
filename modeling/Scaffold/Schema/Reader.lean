import Scaffold.Checked
import Scaffold.Schema.Basic

/-!
Reading a schema from a document. Beside the shape of each table, a foreign key has to lie on a
column of its table and to refer to a table of the schema, and table names have to be distinct.
Keys that a schema does not have are passed over.
-/
namespace Scaffold

def Column.check : Check Column := Check.object fun fields =>
  Column.mk <$> fields.check "name" Check.name <*> fields.check "type" Check.name <*>
    fields.check "unique" (Check.optional Check.flag) <*>
    fields.check "enumValues" (Check.optional (Check.listOf Check.anyText))

def ForeignKey.check : Check ForeignKey := Check.object fun fields =>
  ForeignKey.mk <$> fields.check "column" Check.name <*>
    fields.check "referencedTable" Check.name <*> fields.check "referencedColumn" Check.name

namespace Table

/-- Foreign keys on columns that the table does not have, from a position on. -/
def strayKeys (table : Table) : Nat → List ForeignKey → List Issue
  | _, [] => []
  | position, key :: rest =>
    (if table.columnNames.contains key.column then []
      else [⟨[.key "foreignKeys", .index position, .key "column"],
        .unknownColumn key.column table.name⟩]) ++
      strayKeys table (position + 1) rest

def check : Check Table := fun document =>
  ((Check.object fun fields =>
    Table.mk <$> fields.check "name" Check.name <*>
      fields.check "columns" (Check.listOf Column.check) <*>
      fields.check "foreignKeys" (Check.listOf ForeignKey.check)) document).refine
    fun table => table.strayKeys 0 table.foreignKeys

def danglingKeys (names : List String) : Nat → List ForeignKey → List Issue
  | _, [] => []
  | position, key :: rest =>
    (if names.contains key.referencedTable then []
      else [⟨[.key "foreignKeys", .index position, .key "referencedTable"],
        .unknownTable key.referencedTable⟩]) ++
      danglingKeys names (position + 1) rest

end Table

namespace Schema

def repeatedTables (earlier : List String) : Nat → List Table → List Issue
  | _, [] => []
  | position, table :: rest =>
    (if earlier.contains table.name then
        [⟨[.key "tables", .index position, .key "name"], .repeatedTable table.name⟩]
      else []) ++
      repeatedTables (table.name :: earlier) (position + 1) rest

def danglingTables (names : List String) : Nat → List Table → List Issue
  | _, [] => []
  | position, table :: rest =>
    (Table.danglingKeys names 0 table.foreignKeys).map
        (fun issue => (issue.within (.index position)).within (.key "tables")) ++
      danglingTables names (position + 1) rest

def check : Check Schema := fun document =>
  ((Check.object fun fields =>
    Schema.mk <$> fields.check "tables" (Check.listOf Table.check)) document).refine
    fun schema =>
      repeatedTables [] 0 schema.tables ++ danglingTables schema.tableNames 0 schema.tables

end Schema

/-- Why there is no schema, or no entity for a table. -/
inductive SchemaError where
  | invalid (report : Report)
  | missingTable (name : String)
  deriving DecidableEq, Repr

namespace SchemaError

def issues : SchemaError → List Issue
  | invalid report => report.toList
  | missingTable name => [⟨[.key "tables"], .missingTable name⟩]

def message : SchemaError → String
  | invalid report =>
    let count := report.toList.length
    "Invalid introspection model (" ++ count.repr ++ " issue" ++ (if count = 1 then "" else "s") ++ ")"
  | missingTable name => "Table \"" ++ name ++ "\" is not in the schema"

end SchemaError

/-- The schema that a document describes, or every issue of the document. -/
def Schema.validate (document : Document) : Except SchemaError Schema :=
  match (Schema.check (some document)).result with
  | .ok schema => .ok schema
  | .error report => .error (.invalid report)

end Scaffold
