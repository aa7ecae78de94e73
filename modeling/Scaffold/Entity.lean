import Scaffold.Schema.Reader
import Scaffold.Disambiguation

/-!
Entities: what the generator derives for each table that does nothing but join others. The
columns of a table give its fields, its foreign keys its `belongsTo` associations, the foreign
keys of other tables that refer to it the inverse associations, and the join tables that refer
to it the `manyToMany` associations.
-/
namespace Scaffold

structure Entity where
  table : String
  moduleName : String
  declarations : List Declaration
  deriving DecidableEq, Repr

inductive BuildError where
  | schema (error : SchemaError)
  | contract (error : ContractError)
  deriving DecidableEq, Repr

namespace Entity

def defaultReferenced : String := "id"

def qualified (path : Option String) (table : String) : String :=
  match path with
  | none | some "" => Naming.moduleName table
  | some path => path ++ "." ++ Naming.moduleName table

/-- The options of an association by a foreign key: what differs from the defaults. -/
def keyOptions (key : ForeignKey) (defaultColumn : String) : Options where
  key := if key.column = defaultColumn then none else some key.column
  referenced :=
    if key.referencedColumn = defaultReferenced then none else some key.referencedColumn

def field (column : Column) : Declaration where
  kind := .field
  name := column.name
  subject := Naming.fieldType column.type
  options := { values := column.enumValues }

def fields (table : Table) : List Declaration :=
  (table.columns.filter fun column => !table.keyColumns.contains column.name).map field

def belongsTo (path : Option String) (key : ForeignKey) : Declaration :=
  let name := Inflection.singular (Naming.stripKeySuffix key.column)
  { kind := .belongsTo
    name
    subject := qualified path key.referencedTable
    options := keyOptions key (name ++ Naming.keySuffix) }

/-- The foreign keys to a table in a schema without its join tables, each with its own table. -/
def references (schema : Schema) (name : String) : List (Table × ForeignKey) :=
  (schema.tables.filter fun table => !table.isJoin).flatMap fun table =>
    (table.foreignKeys.filter fun key => key.referencedTable == name).map (table, ·)

/-- The other end of a foreign key of another table, one entity if the column is unique. -/
def inverse (path : Option String) (name : String) (source : Table) (key : ForeignKey) :
    Declaration :=
  let single := source.columns.any fun column => column.name == key.column && column.isUnique
  { kind := if single then .hasOne else .hasMany
    name := if single then Inflection.singular source.name else Inflection.plural source.name
    subject := qualified path source.name
    options := keyOptions key (Naming.defaultKey name) }

/-- The two ends of each join table that are at a table: the table's own key and the other. -/
def joinEnds (schema : Schema) (name : String) : List (Table × ForeignKey × ForeignKey) :=
  schema.tables.flatMap fun table =>
    match table.joinKeys? with
    | none => []
    | some (first, second) =>
      ([(first, second), (second, first)].filter fun ends => ends.1.referencedTable == name).map
        (table, ·)

def manyToMany (path : Option String) (name : String) (join : Table) (owning other : ForeignKey) :
    Declaration :=
  let ownDefault := Naming.defaultKey name
  let otherDefault := Naming.defaultKey other.referencedTable
  { kind := .manyToMany
    name := Inflection.plural other.referencedTable
    subject := qualified path other.referencedTable
    options :=
      { key := if owning.column = ownDefault then none else some owning.column
        joinTable := some join.name
        joinKeys :=
          if owning.column = ownDefault ∧ other.column = otherDefault then none
          else some (.ofPairs (owning.column, name) (other.column, other.referencedTable)) } }

/-- Fields and associations by foreign keys, under the names that they would have alone. -/
def keyed (path : Option String) (schema : Schema) (table : Table) : List Declaration :=
  fields table ++ table.foreignKeys.map (belongsTo path) ++
    (references schema table.name).map fun (source, key) => inverse path table.name source key

def joined (path : Option String) (schema : Schema) (table : Table) : List Declaration :=
  (joinEnds schema table.name).map fun (join, owning, other) =>
    manyToMany path table.name join owning other

def ofTable (path : Option String) (schema : Schema) (table : Table) :
    Except ContractError Entity :=
  (Disambiguation.byJoins
    (Disambiguation.byKey (keyed path schema table) ++ joined path schema table)).map
    fun declarations => ⟨table.name, qualified path table.name, declarations⟩

def build (path : Option String) (schema : Schema) (name : String) : Except BuildError Entity :=
  match schema.table? name with
  | none => .error (.schema (.missingTable name))
  | some table => (ofTable path schema table).mapError .contract

/-- The entities of a schema in the order of its tables, without the join tables. -/
def buildAll (path : Option String) (schema : Schema) : Except BuildError (List Entity) :=
  (schema.tables.filter fun table => !table.isJoin).mapM fun table => build path schema table.name

def ofDocument (path : Option String) (document : Document) : Except BuildError (List Entity) :=
  match Schema.validate document with
  | .error error => .error (.schema error)
  | .ok schema => buildAll path schema

end Entity
end Scaffold
