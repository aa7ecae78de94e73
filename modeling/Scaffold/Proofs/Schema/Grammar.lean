import Scaffold.Proofs.Schema.Faults

/-!
The grammar of the documents that are accepted as schemas: a form, and three conditions on the names
in it. What is accepted is read as the document without the keys that a schema has not.
-/
namespace Scaffold

namespace Table

theorem textsAt_trimmed_columns (document : Document) :
    (trimmed document).textsAt "columns" "name" = document.textsAt "columns" "name" :=
  Document.textsAt_only rfl rfl document

theorem textsAt_trimmed_foreignKeys (document : Document) {key : String}
    (hkey : key = "column" ∨ key = "referencedTable") :
    (trimmed document).textsAt "foreignKeys" key = document.textsAt "foreignKeys" key := by
  obtain rfl | rfl := hkey
  · exact Document.textsAt_only rfl rfl document
  · exact Document.textsAt_only rfl rfl document

variable (table : Table)

theorem textsAt_columns : table.toDocument.textsAt "columns" "name" =
    table.columnNames.map some := by
  simp [toDocument, Document.textsAt, Fields.get?_cons, Document.list?, columnNames,
    Column.toDocument, Document.text?]

theorem textsAt_column : table.toDocument.textsAt "foreignKeys" "column" =
    table.keyColumns.map some := by
  simp [toDocument, Document.textsAt, Fields.get?_cons, Document.list?, keyColumns,
    ForeignKey.toDocument, Document.text?]

theorem textsAt_referencedTable : table.toDocument.textsAt "foreignKeys" "referencedTable" =
    (table.foreignKeys.map (·.referencedTable)).map some := by
  simp [toDocument, Document.textsAt, Fields.get?_cons, Document.list?,
    ForeignKey.toDocument, Document.text?]

end Table

namespace Schema

/-- How the names in the document of a schema have to fit together. -/
structure IsLinked (document : Document) : Prop where
  distinct : (document.textsAt "tables" "name").Nodup
  onColumns : ∀ table ∈ document.itemsAt "tables",
    table.textsAt "foreignKeys" "column" ⊆ table.textsAt "columns" "name"
  resolved : ∀ table ∈ document.itemsAt "tables",
    table.textsAt "foreignKeys" "referencedTable" ⊆ document.textsAt "tables" "name"

theorem isLinked_iff (document : Document) : IsLinked document ↔
    (document.textsAt "tables" "name").Nodup ∧ ∀ table ∈ document.itemsAt "tables",
      table.textsAt "foreignKeys" "column" ⊆ table.textsAt "columns" "name" ∧
      table.textsAt "foreignKeys" "referencedTable" ⊆ document.textsAt "tables" "name" := by
  constructor
  · intro h
    exact ⟨h.distinct, fun table htable => ⟨h.onColumns table htable, h.resolved table htable⟩⟩
  · rintro ⟨hdistinct, htables⟩
    exact ⟨hdistinct, fun table htable => (htables table htable).1,
      fun table htable => (htables table htable).2⟩

theorem isLinked_trimmed_iff (document : Document) :
    IsLinked (trimmed document) ↔ IsLinked document := by
  have hnames : (trimmed document).textsAt "tables" "name" = document.textsAt "tables" "name" :=
    Document.textsAt_only rfl rfl document
  have hitems : (trimmed document).itemsAt "tables" =
      (document.itemsAt "tables").map Table.trimmed :=
    Document.itemsAt_only rfl document
  rw [isLinked_iff, isLinked_iff, hnames, hitems, List.forall_mem_map]
  simp only [Table.textsAt_trimmed_columns, Table.textsAt_trimmed_foreignKeys _ (.inl rfl),
    Table.textsAt_trimmed_foreignKeys _ (.inr rfl)]

theorem isLinked_toDocument_iff (schema : Schema) : IsLinked schema.toDocument ↔
    schema.tableNames.Nodup ∧ ∀ table ∈ schema.tables,
      (∀ key ∈ table.foreignKeys, key.column ∈ table.columnNames) ∧
      ∀ key ∈ table.foreignKeys, key.referencedTable ∈ schema.tableNames := by
  have hitems : schema.toDocument.itemsAt "tables" = schema.tables.map (·.toDocument) := by
    simp [toDocument, Fields.get?_cons, Document.list?]
  have hnames : schema.toDocument.textsAt "tables" "name" = schema.tableNames.map some := by
    rw [Document.textsAt, hitems]
    simp [tableNames, Table.toDocument, Fields.get?_cons, Document.text?]
  have hinj : Function.Injective (some : String → Option String) := fun _ _ => Option.some.inj
  rw [isLinked_iff, hnames, hitems, List.forall_mem_map, List.nodup_map_iff hinj]
  simp only [Table.textsAt_columns, Table.textsAt_column, Table.textsAt_referencedTable,
    List.map_subset_iff _ hinj]
  simp [Table.keyColumns, List.subset_def]

theorem valid_iff_of_trimmed {document : Document} {schema : Schema}
    (h : trimmed document = schema.toDocument) :
    schema.Valid ↔ (∀ table ∈ schema.tables, table.TextsIn (· ≠ "")) ∧ IsLinked document := by
  rw [← isLinked_trimmed_iff, h, isLinked_toDocument_iff]
  constructor
  · intro hvalid
    refine ⟨?_, hvalid.names_nodup, ?_⟩
    · intro table htable
      have hvalid := hvalid.tables_valid table htable
      exact ⟨hvalid.name_ne, hvalid.columns_named, hvalid.keys_named⟩
    · intro table htable
      exact ⟨(hvalid.tables_valid table htable).keys_on_columns, hvalid.keys_refer table htable⟩
  · rintro ⟨htexts, hnames, hkeys⟩
    refine ⟨hnames, ?_, fun table htable => (hkeys table htable).2⟩
    intro table htable
    have htexts := htexts table htable
    exact ⟨htexts.name, htexts.columns, htexts.foreignKeys, (hkeys table htable).1⟩

/-- A document is accepted exactly if it has the form of a schema, no name in it is empty and its
names fit together. It is read as itself without other keys, and so is what was read. -/
theorem validate_accepts_iff (document : Document) :
    ((∃ schema, Schema.validate document = .ok schema) ↔
      IsForm (· ≠ "") document ∧ IsLinked document) ∧
    ∀ schema, Schema.validate document = .ok schema →
      schema.toDocument = trimmed document ∧ Schema.validate schema.toDocument = .ok schema := by
  have hform : IsForm (· ≠ "") document ↔ ∃ schema : Schema,
      trimmed document = schema.toDocument ∧ ∀ table ∈ schema.tables, table.TextsIn (· ≠ "") := by
    have hcovers := check_covers (· ≠ "") (some document)
    simp only [check_reads (some document), Option.map_some, Option.some.injEq,
      exists_eq_left'] at hcovers
    exact hcovers
  constructor
  · simp only [validate_eq_ok_iff, hform]
    constructor
    · rintro ⟨schema, htrimmed, hvalid⟩
      obtain ⟨htexts, hlinked⟩ := (valid_iff_of_trimmed htrimmed).1 hvalid
      exact ⟨⟨schema, htrimmed, htexts⟩, hlinked⟩
    · rintro ⟨⟨schema, htrimmed, htexts⟩, hlinked⟩
      exact ⟨schema, htrimmed, (valid_iff_of_trimmed htrimmed).2 ⟨htexts, hlinked⟩⟩
  · intro schema hschema
    obtain ⟨htrimmed, hvalid⟩ := validate_eq_ok_iff.1 hschema
    exact ⟨htrimmed.symm, validate_eq_ok_iff.2 ⟨trimmed_toDocument schema, hvalid⟩⟩

def tree : Document :=
  .object [("tables", .list [.object [("comment", .null), ("name", .text "nodes"),
    ("columns", .list [
      .object [("name", .text "id"), ("type", .text "uuid"), ("unique", .bool true)],
      .object [("name", .text "parent_id"), ("type", .text "uuid"), ("default", .null)]]),
    ("foreignKeys", .list [.object [("column", .text "parent_id"),
      ("referencedTable", .text "nodes"), ("referencedColumn", .text "id")]])]]),
    ("version", .text "1")]

theorem validate_accepts_iff_tree : ∃ schema, Schema.validate tree = .ok schema ∧
    IsForm (· ≠ "") tree ∧ IsLinked tree ∧ schema.toDocument = trimmed tree ∧
    Schema.validate schema.toDocument = .ok schema := by
  have hresult : Schema.validate tree = .ok ⟨[⟨"nodes", [⟨"id", "uuid", some true, none⟩,
      ⟨"parent_id", "uuid", none, none⟩], [⟨"parent_id", "nodes", "id"⟩]⟩]⟩ := by rfl
  obtain ⟨haccepts, hread⟩ := validate_accepts_iff tree
  obtain ⟨hform, hlinked⟩ := haccepts.1 ⟨_, hresult⟩
  exact ⟨_, hresult, hform, hlinked, hread _ hresult⟩

end Schema
end Scaffold
