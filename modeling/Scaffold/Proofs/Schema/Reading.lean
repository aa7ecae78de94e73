import Scaffold.Proofs.Checked.Reading
import Scaffold.Schema.Reader

/-!
Which schema is found in a document. `trimmed` drops the keys that no schema has, at every level,
and `check_reads` says that the schema found is the one that the trimmed document writes. `IsForm`
is the form of the documents in which a schema is found, with what is asked of its texts left open.
-/
namespace Scaffold

namespace Column

theorem value?_parts_iff (fields : Fields) (column : Column) :
    (Column.mk <$> fields.check "name" Check.name <*> fields.check "type" Check.name <*>
      fields.check "unique" (Check.optional Check.flag) <*>
      fields.check "enumValues" (Check.optional (Check.listOf Check.anyText))).value? =
        some column ↔
      (Check.name (fields.get? "name")).value? = some column.name ∧
      (Check.name (fields.get? "type")).value? = some column.type ∧
      (Check.optional Check.flag (fields.get? "unique")).value? = some column.unique ∧
      (Check.optional (Check.listOf Check.anyText) (fields.get? "enumValues")).value? =
        some column.enumValues := by
  simp only [Checked.value?_seq_eq_some_iff, Checked.value?_map_eq_some_iff, Fields.value?_check]
  constructor
  · rintro ⟨_, ⟨_, ⟨_, ⟨name, hname, rfl⟩, type, htype, rfl⟩, unique, hunique, rfl⟩, values,
      hvalues, rfl⟩
    exact ⟨hname, htype, hunique, hvalues⟩
  · rintro ⟨hname, htype, hunique, hvalues⟩
    exact ⟨_, ⟨_, ⟨_, ⟨_, hname, rfl⟩, _, htype, rfl⟩, _, hunique, rfl⟩, _, hvalues, rfl⟩

def trimmed : Document → Document :=
  Document.only [("name", id), ("type", id), ("unique", id), ("enumValues", id)]

def fieldsOf (column : Column) : Fields :=
  [("name", .text column.name), ("type", .text column.type)] ++
    (column.unique.map fun unique => ("unique", Document.bool unique)).toList ++
    (column.enumValues.map fun values => ("enumValues", Document.texts values)).toList

theorem get?_fieldsOf (column : Column) (key : String) : column.fieldsOf.get? key =
    (if key = "name" then some (.text column.name)
      else if key = "type" then some (.text column.type) else none).or
      ((if key = "unique" then column.unique.map .bool else none).or
        (if key = "enumValues" then column.enumValues.map .texts else none)) := by
  rw [fieldsOf, Fields.get?_append, Fields.get?_append, Fields.get?_toList, Fields.get?_toList,
    Fields.get?_cons, Fields.get?_cons, Option.or_assoc]
  rfl

theorem trimmed_toDocument (column : Column) : trimmed column.toDocument = column.toDocument := by
  obtain ⟨name, type, unique, values⟩ := column
  cases unique <;> cases values <;> rfl

theorem check_reads : Column.check.Reads trimmed Column.toDocument := by
  show Column.check.Reads trimmed fun column => .object column.fieldsOf
  refine Check.reads_object (by decide) trimmed_toDocument ?_
  intro fields column
  have htexts : (Check.optional (Check.listOf Check.anyText) (fields.get? "enumValues")).value? =
      some column.enumValues ↔ fields.get? "enumValues" = column.enumValues.map .texts := by
    rw [Check.reads_anyText.listOf.value?_optional, Document.eachItem_id, Option.map_id, id_eq]
    rfl
  rw [value?_parts_iff, htexts]
  simp [Check.reads_name _ _, Check.reads_flag.value?_optional, get?_fieldsOf]

def IsForm (named : String → Prop) : Document → Prop :=
  Document.IsObject [("name", Document.IsText named), ("type", Document.IsText named)]
    [("unique", Document.IsFlag), ("enumValues", Document.IsListOf (Document.IsText fun _ => True))]

def TextsIn (named : String → Prop) (column : Column) : Prop :=
  named column.name ∧ named column.type

theorem check_covers (named : String → Prop) :
    Column.check.Covers (IsForm named) (TextsIn named) := by
  refine Check.covers_object ?_
  intro fields
  have hname := Check.covers_of_reads_text Check.reads_name named (fields.get? "name")
  have htype := Check.covers_of_reads_text Check.reads_name named (fields.get? "type")
  have hunique : (∀ given, fields.get? "unique" = some given → given.IsFlag) ↔ _ :=
    Check.covers_flag.value?_optional
  have hvalues : (∀ given, fields.get? "enumValues" = some given →
      given.IsListOf (Document.IsText fun _ => True)) ↔ _ :=
    (Check.covers_of_reads_text Check.reads_anyText fun _ => True).listOf.value?_optional
  simp only [List.forall_mem_cons, hname, htype, hunique, hvalues, value?_parts_iff]
  constructor
  · rintro ⟨⟨⟨name, hname, hnameIn⟩, ⟨type, htype, htypeIn⟩, -⟩, ⟨unique, hunique, -⟩,
      ⟨values, hvalues, -⟩, -⟩
    exact ⟨⟨name, type, unique, values⟩, ⟨hname, htype, hunique, hvalues⟩, hnameIn, htypeIn⟩
  · rintro ⟨column, ⟨hname, htype, hunique, hvalues⟩, hnameIn, htypeIn⟩
    simp [hname, htype, hunique, hvalues, hnameIn, htypeIn]

end Column

namespace ForeignKey

theorem value?_parts_iff (fields : Fields) (key : ForeignKey) :
    (ForeignKey.mk <$> fields.check "column" Check.name <*>
      fields.check "referencedTable" Check.name <*>
      fields.check "referencedColumn" Check.name).value? = some key ↔
      (Check.name (fields.get? "column")).value? = some key.column ∧
      (Check.name (fields.get? "referencedTable")).value? = some key.referencedTable ∧
      (Check.name (fields.get? "referencedColumn")).value? = some key.referencedColumn := by
  simp only [Checked.value?_seq_eq_some_iff, Checked.value?_map_eq_some_iff, Fields.value?_check]
  constructor
  · rintro ⟨_, ⟨_, ⟨column, hcolumn, rfl⟩, table, htable, rfl⟩, referenced, hreferenced, rfl⟩
    exact ⟨hcolumn, htable, hreferenced⟩
  · rintro ⟨hcolumn, htable, hreferenced⟩
    exact ⟨_, ⟨_, ⟨_, hcolumn, rfl⟩, _, htable, rfl⟩, _, hreferenced, rfl⟩

def trimmed : Document → Document :=
  Document.only [("column", id), ("referencedTable", id), ("referencedColumn", id)]

theorem trimmed_toDocument (key : ForeignKey) : trimmed key.toDocument = key.toDocument := rfl

theorem check_reads : ForeignKey.check.Reads trimmed ForeignKey.toDocument := by
  refine Check.reads_object (by decide) trimmed_toDocument ?_
  intro fields key
  rw [value?_parts_iff]
  simp [Check.reads_name _ _, Fields.get?_cons]

def IsForm (named : String → Prop) : Document → Prop :=
  Document.IsObject [("column", Document.IsText named), ("referencedTable", Document.IsText named),
    ("referencedColumn", Document.IsText named)] []

def TextsIn (named : String → Prop) (key : ForeignKey) : Prop :=
  named key.column ∧ named key.referencedTable ∧ named key.referencedColumn

theorem check_covers (named : String → Prop) :
    ForeignKey.check.Covers (IsForm named) (TextsIn named) := by
  refine Check.covers_object ?_
  intro fields
  have htext := fun key => Check.covers_of_reads_text Check.reads_name named (fields.get? key)
  simp only [List.forall_mem_cons, htext, value?_parts_iff]
  constructor
  · rintro ⟨⟨⟨column, hcolumn, hin⟩, ⟨table, htable, htableIn⟩,
      ⟨referenced, hreferenced, hreferencedIn⟩, -⟩, -⟩
    exact ⟨⟨column, table, referenced⟩, ⟨hcolumn, htable, hreferenced⟩, hin, htableIn,
      hreferencedIn⟩
  · rintro ⟨key, ⟨hcolumn, htable, hreferenced⟩, hin, htableIn, hreferencedIn⟩
    simp [hcolumn, htable, hreferenced, hin, htableIn, hreferencedIn]

end ForeignKey

namespace Table

theorem value?_parts_iff (fields : Fields) (table : Table) :
    (Table.mk <$> fields.check "name" Check.name <*>
      fields.check "columns" (Check.listOf Column.check) <*>
      fields.check "foreignKeys" (Check.listOf ForeignKey.check)).value? = some table ↔
      (Check.name (fields.get? "name")).value? = some table.name ∧
      (Check.listOf Column.check (fields.get? "columns")).value? = some table.columns ∧
      (Check.listOf ForeignKey.check (fields.get? "foreignKeys")).value? =
        some table.foreignKeys := by
  simp only [Checked.value?_seq_eq_some_iff, Checked.value?_map_eq_some_iff, Fields.value?_check]
  constructor
  · rintro ⟨_, ⟨_, ⟨name, hname, rfl⟩, columns, hcolumns, rfl⟩, keys, hkeys, rfl⟩
    exact ⟨hname, hcolumns, hkeys⟩
  · rintro ⟨hname, hcolumns, hkeys⟩
    exact ⟨_, ⟨_, ⟨_, hname, rfl⟩, _, hcolumns, rfl⟩, _, hkeys, rfl⟩

def trimmed : Document → Document :=
  Document.only [("name", id), ("columns", Document.eachItem Column.trimmed),
    ("foreignKeys", Document.eachItem ForeignKey.trimmed)]

theorem trimmed_toDocument (table : Table) : trimmed table.toDocument = table.toDocument := by
  simp [trimmed, toDocument, Document.only, Fields.only, Fields.get?_cons, Document.eachItem,
    Column.trimmed_toDocument, ForeignKey.trimmed_toDocument]

theorem check_reads : Table.check.Reads trimmed Table.toDocument := by
  refine (Check.reads_object (by decide) trimmed_toDocument ?_).refine _
  intro fields table
  rw [value?_parts_iff]
  simp [Check.reads_name _ _, Column.check_reads.listOf _ _, ForeignKey.check_reads.listOf _ _,
    Fields.get?_cons]

/-- The form of a table, of which the texts are of one sort. -/
def IsForm (named : String → Prop) : Document → Prop :=
  Document.IsObject [("name", Document.IsText named),
    ("columns", Document.IsListOf (Column.IsForm named)),
    ("foreignKeys", Document.IsListOf (ForeignKey.IsForm named))] []

structure TextsIn (named : String → Prop) (table : Table) : Prop where
  name : named table.name
  columns : ∀ column ∈ table.columns, column.TextsIn named
  foreignKeys : ∀ key ∈ table.foreignKeys, key.TextsIn named

theorem check_covers (named : String → Prop) :
    Table.check.Covers (IsForm named) (TextsIn named) := by
  refine (Check.covers_object ?_).refine _
  intro fields
  have hname := Check.covers_of_reads_text Check.reads_name named (fields.get? "name")
  have hcolumns := (Column.check_covers named).listOf (fields.get? "columns")
  have hkeys := (ForeignKey.check_covers named).listOf (fields.get? "foreignKeys")
  simp only [List.forall_mem_cons, hname, hcolumns, hkeys, value?_parts_iff]
  constructor
  · rintro ⟨⟨⟨name, hname, hin⟩, ⟨columns, hcolumns, hcolumnsIn⟩, ⟨keys, hkeys, hkeysIn⟩, -⟩, -⟩
    exact ⟨⟨name, columns, keys⟩, ⟨hname, hcolumns, hkeys⟩, hin, hcolumnsIn, hkeysIn⟩
  · rintro ⟨table, ⟨hname, hcolumns, hkeys⟩, hin⟩
    exact ⟨⟨⟨_, hname, hin.name⟩, ⟨_, hcolumns, hin.columns⟩, ⟨_, hkeys, hin.foreignKeys⟩, by simp⟩,
      by simp⟩

end Table

namespace Schema

theorem value?_parts_iff (fields : Fields) (schema : Schema) :
    (Schema.mk <$> fields.check "tables" (Check.listOf Table.check)).value? = some schema ↔
      (Check.listOf Table.check (fields.get? "tables")).value? = some schema.tables := by
  simp only [Checked.value?_map_eq_some_iff, Fields.value?_check]
  constructor
  · rintro ⟨tables, htables, rfl⟩
    exact htables
  · intro htables
    exact ⟨_, htables, rfl⟩

/-- The document of a schema without other keys, in its parts too. -/
def trimmed : Document → Document := Document.only [("tables", Document.eachItem Table.trimmed)]

theorem trimmed_toDocument (schema : Schema) : trimmed schema.toDocument = schema.toDocument := by
  simp [trimmed, toDocument, Document.only, Fields.only, Fields.get?_cons, Document.eachItem,
    Table.trimmed_toDocument]

theorem check_reads : Schema.check.Reads trimmed Schema.toDocument := by
  refine (Check.reads_object (by decide) trimmed_toDocument ?_).refine _
  intro fields schema
  rw [value?_parts_iff]
  simp [Table.check_reads.listOf _ _, Fields.get?_cons]

/-- The form of a schema, of which the texts are of one sort. -/
def IsForm (named : String → Prop) : Document → Prop :=
  Document.IsObject [("tables", Document.IsListOf (Table.IsForm named))] []

theorem check_covers (named : String → Prop) :
    Schema.check.Covers (IsForm named)
      fun schema => ∀ table ∈ schema.tables, table.TextsIn named := by
  refine (Check.covers_object ?_).refine _
  intro fields
  have htables := (Table.check_covers named).listOf (fields.get? "tables")
  simp only [List.forall_mem_cons, htables, value?_parts_iff]
  constructor
  · rintro ⟨⟨⟨tables, htables, hin⟩, -⟩, -⟩
    exact ⟨⟨tables⟩, htables, hin⟩
  · rintro ⟨schema, htables, hin⟩
    exact ⟨⟨⟨_, htables, hin⟩, by simp⟩, by simp⟩

end Schema
end Scaffold
