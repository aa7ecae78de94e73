import Scaffold.Proofs.Checked.Faults
import Scaffold.Proofs.Schema.Reading
import Scaffold.Proofs.Schema.Validity

/-!
The faults of a schema, in the order in which they are reported: table by table the empty texts and
the keys on no column, then the names that come again, then the keys to no table. They are written
down here without the loops that look for them. A document of the form of a schema, whatever its
texts, is reported with exactly these.
-/
namespace Scaffold

/-- The faults of a column are its empty texts. -/
def Column.faults (column : Column) : List Issue :=
  Issue.under "name" (Issue.ofName column.name) ++ Issue.under "type" (Issue.ofName column.type)

namespace ForeignKey

def faults (key : ForeignKey) : List Issue :=
  Issue.under "column" (Issue.ofName key.column) ++
    Issue.under "referencedTable" (Issue.ofName key.referencedTable) ++
    Issue.under "referencedColumn" (Issue.ofName key.referencedColumn)

/-- The fault of a key on no column of its table. -/
def stray (table : Table) (key : ForeignKey) : List Issue :=
  if key.column ∈ table.columnNames then []
  else [⟨[.key "column"], .unknownColumn key.column table.name⟩]

/-- The fault of a key to none of the tables of these names. -/
def dangling (names : List String) (key : ForeignKey) : List Issue :=
  if key.referencedTable ∈ names then []
  else [⟨[.key "referencedTable"], .unknownTable key.referencedTable⟩]

end ForeignKey

namespace Table

def emptyTexts (table : Table) : List Issue :=
  Issue.under "name" (Issue.ofName table.name) ++
    Issue.under "columns" (Issue.ofItems Column.faults table.columns) ++
    Issue.under "foreignKeys" (Issue.ofItems ForeignKey.faults table.foreignKeys)

def faults (table : Table) : List Issue :=
  table.emptyTexts ++
    Issue.under "foreignKeys" (Issue.ofItems (ForeignKey.stray table) table.foreignKeys)

def danglings (names : List String) (table : Table) : List Issue :=
  Issue.under "foreignKeys" (Issue.ofItems (ForeignKey.dangling names) table.foreignKeys)

/-- The fault of a table whose name stands before its position among these names. -/
def repeated (names : List String) (table : Table) (position : Nat) : List Issue :=
  if table.name ∈ names.take position then
    [⟨[.key "tables", .index position, .key "name"], .repeatedTable table.name⟩]
  else []

end Table

namespace Schema

def faults (schema : Schema) : List Issue :=
  Issue.under "tables" (Issue.ofItems Table.faults schema.tables) ++
    schema.tables.zipIdx.flatMap (fun (table, position) =>
      table.repeated schema.tableNames position) ++
    Issue.under "tables" (Issue.ofItems (Table.danglings schema.tableNames) schema.tables)

end Schema

namespace Table

theorem strayKeys_eq (table : Table) (position : Nat) (keys : List ForeignKey) :
    table.strayKeys position keys =
      Issue.under "foreignKeys" (Issue.ofItemsFrom position (ForeignKey.stray table) keys) := by
  induction keys generalizing position with
  | nil => rfl
  | cons key keys ih =>
    rw [strayKeys, ih, Issue.ofItemsFrom_cons, Issue.under_append, ForeignKey.stray]
    by_cases h : key.column ∈ table.columnNames
    · simp [h]
    · simp [h, Issue.under, Issue.within]

theorem danglingKeys_eq (names : List String) (position : Nat) (keys : List ForeignKey) :
    danglingKeys names position keys =
      Issue.under "foreignKeys" (Issue.ofItemsFrom position (ForeignKey.dangling names) keys) := by
  induction keys generalizing position with
  | nil => rfl
  | cons key keys ih =>
    rw [danglingKeys, ih, Issue.ofItemsFrom_cons, Issue.under_append, ForeignKey.dangling]
    by_cases h : key.referencedTable ∈ names
    · simp [h]
    · simp [h, Issue.under, Issue.within]

end Table

namespace Schema

/-- The names that the loop has met are the names of the tables before the position. -/
theorem repeatedTables_eq (earlier : List String) (before tables : List Table)
    (hearlier : ∀ name, name ∈ earlier ↔ name ∈ before.map (·.name)) :
    repeatedTables earlier before.length tables =
      (tables.zipIdx before.length).flatMap fun (table, position) =>
        table.repeated ((before ++ tables).map (·.name)) position := by
  induction tables generalizing earlier before with
  | nil => rfl
  | cons table tables ih =>
    have hnext : ∀ name, name ∈ table.name :: earlier ↔
        name ∈ (before ++ [table]).map (·.name) := by
      intro name
      rw [List.mem_cons, hearlier, List.map_append, List.mem_append, or_comm]
      simp
    have hrest := ih (table.name :: earlier) (before ++ [table]) hnext
    rw [List.length_append, List.length_singleton, List.append_assoc,
      List.singleton_append] at hrest
    have hbefore : ((before ++ table :: tables).map (·.name)).take before.length =
        before.map (·.name) := by
      simp
    rw [repeatedTables, hrest, List.zipIdx_cons, List.flatMap_cons]
    simp only [Table.repeated, hbefore, List.contains_iff_mem, hearlier]

theorem repeatedTables_zero_eq (schema : Schema) :
    repeatedTables [] 0 schema.tables = schema.tables.zipIdx.flatMap fun (table, position) =>
      table.repeated schema.tableNames position :=
  repeatedTables_eq [] [] schema.tables fun _ => Iff.rfl

theorem repeatedTables_eq_nil_iff (earlier : List String) (position : Nat) (tables : List Table) :
    repeatedTables earlier position tables = [] ↔
      (tables.map (·.name)).Nodup ∧ ∀ table ∈ tables, table.name ∉ earlier := by
  induction tables generalizing earlier position with
  | nil => simp [repeatedTables]
  | cons table tables ih =>
    have hfirst : (if earlier.contains table.name then
        [(⟨[.key "tables", .index position, .key "name"], .repeatedTable table.name⟩ : Issue)]
        else []) = [] ↔ table.name ∉ earlier := by
      split <;> simp_all
    rw [repeatedTables, List.append_eq_nil_iff, ih, hfirst, List.map_cons, List.nodup_cons,
      List.forall_mem_cons]
    have hrest : (∀ other ∈ tables, other.name ∉ table.name :: earlier) ↔
        table.name ∉ tables.map (·.name) ∧ ∀ other ∈ tables, other.name ∉ earlier := by
      simp only [List.mem_cons, not_or, List.mem_map, not_exists, not_and]
      constructor
      · intro h
        exact ⟨fun other hother => (h other hother).1, fun other hother => (h other hother).2⟩
      · rintro ⟨hname, hearlier⟩ other hother
        exact ⟨hname other hother, hearlier other hother⟩
    rw [hrest]
    tauto

theorem danglingTables_eq (names : List String) (position : Nat) (tables : List Table) :
    danglingTables names position tables =
      Issue.under "tables" (Issue.ofItemsFrom position (Table.danglings names) tables) := by
  induction tables generalizing position with
  | nil => rfl
  | cons table tables ih =>
    rw [danglingTables, ih, Issue.ofItemsFrom_cons, Issue.under_append, Table.danglingKeys_eq]
    simp [Issue.under, Table.danglings, Issue.ofItems]

end Schema

theorem Column.check_blames : Column.check.Blames Column.faults := by
  refine Check.blames_object ?_
  intro fields column h
  obtain ⟨hname, htype, hunique, hvalues⟩ := (Column.value?_parts_iff fields column).1 h
  have hflag : Check.flag.Blames fun _ => [] := Check.blames_ofType
  simp [Column.faults, Check.blames_name.under hname, Check.blames_name.under htype,
    hflag.optional.under hunique, Check.blames_texts.optional.under hvalues]

theorem ForeignKey.check_blames : ForeignKey.check.Blames ForeignKey.faults := by
  refine Check.blames_object ?_
  intro fields key h
  obtain ⟨hcolumn, htable, hreferenced⟩ := (ForeignKey.value?_parts_iff fields key).1 h
  simp [ForeignKey.faults, Check.blames_name.under hcolumn, Check.blames_name.under htable,
    Check.blames_name.under hreferenced]

theorem Table.check_blames : Table.check.Blames Table.faults := by
  have hparts : (Check.object fun fields =>
      Table.mk <$> fields.check "name" Check.name <*>
        fields.check "columns" (Check.listOf Column.check) <*>
        fields.check "foreignKeys" (Check.listOf ForeignKey.check)).Blames Table.emptyTexts := by
    refine Check.blames_object ?_
    intro fields table h
    obtain ⟨hname, hcolumns, hkeys⟩ := (Table.value?_parts_iff fields table).1 h
    simp [Table.emptyTexts, Check.blames_name.under hname,
      Column.check_blames.listOf.under hcolumns, ForeignKey.check_blames.listOf.under hkeys]
  have hfaults : (fun table : Table => table.emptyTexts ++ table.strayKeys 0 table.foreignKeys) =
      Table.faults := by
    funext table
    rw [Table.strayKeys_eq]
    rfl
  rw [← hfaults]
  exact hparts.refine _

theorem Schema.check_blames : Schema.check.Blames Schema.faults := by
  have hparts : (Check.object fun fields =>
      Schema.mk <$> fields.check "tables" (Check.listOf Table.check)).Blames fun schema =>
      Issue.under "tables" (Issue.ofItems Table.faults schema.tables) := by
    refine Check.blames_object ?_
    intro fields schema h
    have htables := (value?_parts_iff fields schema).1 h
    rw [Checked.issues_map, Table.check_blames.listOf.under htables]
  have hfaults : (fun schema : Schema =>
      Issue.under "tables" (Issue.ofItems Table.faults schema.tables) ++
        (repeatedTables [] 0 schema.tables ++ danglingTables schema.tableNames 0 schema.tables)) =
      Schema.faults := by
    funext schema
    rw [repeatedTables_zero_eq, danglingTables_eq, ← List.append_assoc]
    rfl
  rw [← hfaults]
  exact hparts.refine _

theorem Column.faults_eq_nil_iff (column : Column) : column.faults = [] ↔ column.Named := by
  rw [Column.faults, List.append_eq_nil_iff, Issue.under_eq_nil_iff, Issue.under_eq_nil_iff,
    Issue.ofName_eq_nil_iff, Issue.ofName_eq_nil_iff, Column.Named]

namespace ForeignKey

theorem faults_eq_nil_iff (key : ForeignKey) : key.faults = [] ↔ key.Named := by
  simp only [faults, List.append_eq_nil_iff, Issue.under_eq_nil_iff, Issue.ofName_eq_nil_iff,
    and_assoc, Named]

theorem stray_eq_nil_iff (table : Table) (key : ForeignKey) :
    key.stray table = [] ↔ key.column ∈ table.columnNames := by
  simp [stray]

theorem dangling_eq_nil_iff (names : List String) (key : ForeignKey) :
    key.dangling names = [] ↔ key.referencedTable ∈ names := by
  simp [dangling]

end ForeignKey

theorem Table.faults_eq_nil_iff (table : Table) : table.faults = [] ↔ table.Valid := by
  simp only [faults, emptyTexts, List.append_eq_nil_iff, Issue.under_eq_nil_iff, Issue.ofItems,
    Issue.ofItemsFrom_eq_nil_iff, Issue.ofName_eq_nil_iff, Column.faults_eq_nil_iff,
    ForeignKey.faults_eq_nil_iff, ForeignKey.stray_eq_nil_iff]
  constructor
  · rintro ⟨⟨⟨hname, hcolumns⟩, hkeys⟩, hstray⟩
    exact ⟨hname, hcolumns, hkeys, hstray⟩
  · intro h
    exact ⟨⟨⟨h.name_ne, h.columns_named⟩, h.keys_named⟩, h.keys_on_columns⟩

namespace Schema

theorem faults_eq_nil_iff (schema : Schema) : schema.faults = [] ↔ schema.Valid := by
  have hrepeated : repeatedTables [] 0 schema.tables = [] ↔ schema.tableNames.Nodup := by
    simp [repeatedTables_eq_nil_iff, tableNames]
  simp only [faults, ← repeatedTables_zero_eq, List.append_eq_nil_iff, Issue.under_eq_nil_iff,
    Issue.ofItems, Issue.ofItemsFrom_eq_nil_iff, Table.faults_eq_nil_iff, Table.danglings,
    ForeignKey.dangling_eq_nil_iff, hrepeated]
  constructor
  · rintro ⟨⟨htables, hnames⟩, hrefer⟩
    exact ⟨hnames, htables, hrefer⟩
  · intro h
    exact ⟨⟨h.tables_valid, h.names_nodup⟩, h.keys_refer⟩

variable {document : Document} {schema : Schema}

theorem issues_check_of_trimmed (h : trimmed document = schema.toDocument) :
    (Schema.check (some document)).issues = schema.faults := by
  have hvalue := (check_reads (some document) schema).2 (congrArg some h)
  exact check_blames _ schema hvalue

theorem validate_eq_ok_iff : Schema.validate document = .ok schema ↔
    trimmed document = schema.toDocument ∧ schema.Valid := by
  have hvalue : (Schema.check (some document)).value? = some schema ↔
      trimmed document = schema.toDocument := by
    rw [check_reads, Option.map_some, Option.some.injEq]
  have hresult : Schema.validate document = .ok schema ↔
      (Schema.check (some document)).result = .ok schema := by
    rw [Schema.validate]
    split <;> simp [*]
  rw [hresult, Checked.result_eq_ok_iff, hvalue]
  apply and_congr_right
  intro h
  rw [issues_check_of_trimmed h, faults_eq_nil_iff]

theorem validate_valid (h : Schema.validate document = .ok schema) : schema.Valid :=
  (validate_eq_ok_iff.1 h).2

theorem exists_error_of_faults (h : trimmed document = schema.toDocument)
    (hfaults : schema.faults ≠ []) :
    ∃ report : Report, Schema.validate document = .error (.invalid report) ∧
      report.toList = schema.faults := by
  cases hresult : (Schema.check (some document)).result with
  | ok accepted =>
    have hnone := (Checked.result_eq_ok_iff.1 hresult).2
    exact absurd (issues_check_of_trimmed h ▸ hnone) hfaults
  | error report =>
    have hissues := Checked.result_eq_error_iff.1 hresult
    refine ⟨report, ?_, ?_⟩
    · rw [Schema.validate, hresult]
    · rw [← hissues, issues_check_of_trimmed h]

/-- A document of the form of a schema, whose texts may be empty and which may have other keys, is
accepted exactly if the schema in it has no faults, and is else reported with all of them. -/
theorem validate_reports_faults (h : IsForm (fun _ => True) document) :
    ∃ schema : Schema, trimmed document = schema.toDocument ∧
      (schema.faults = [] → Schema.validate document = .ok schema) ∧
      (schema.faults ≠ [] → ∃ error : SchemaError, Schema.validate document = .error error ∧
        error.issues = schema.faults ∧
        error.message = "Invalid introspection model (" ++ schema.faults.length.repr ++ " issue" ++
          (if schema.faults.length = 1 then "" else "s") ++ ")") := by
  obtain ⟨schema, hvalue, -⟩ := (check_covers (fun _ => True) (some document)).1 ⟨_, rfl, h⟩
  have htrimmed : trimmed document = schema.toDocument :=
    Option.some.inj ((check_reads (some document) schema).1 hvalue)
  refine ⟨schema, htrimmed, ?_, ?_⟩
  · intro hfaults
    exact validate_eq_ok_iff.2 ⟨htrimmed, (faults_eq_nil_iff schema).1 hfaults⟩
  · intro hfaults
    obtain ⟨report, hreport, hissues⟩ := exists_error_of_faults htrimmed hfaults
    refine ⟨.invalid report, hreport, hissues, ?_⟩
    unfold SchemaError.message
    dsimp only
    rw [hissues]

def ruin : Document :=
  .object [("version", .text "1"), ("tables", .list [
    .object [("name", .text ""),
      ("columns", .list [.object [("name", .text "id"), ("type", .text ""), ("note", .null)]]),
      ("foreignKeys", .list [.object [("column", .text "owner_id"),
        ("referencedTable", .text "owners"), ("referencedColumn", .text "")]])],
    .object [("name", .text ""), ("columns", .list []), ("foreignKeys", .list [])]])]

theorem value?_check_ruin : (Schema.check (some ruin)).value? =
    some ⟨[⟨"", [⟨"id", "", none, none⟩], [⟨"owner_id", "owners", ""⟩]⟩, ⟨"", [], []⟩]⟩ := by rfl

theorem isForm_ruin : IsForm (fun _ => True) ruin := by
  obtain ⟨document, hdocument, hform⟩ :=
    (check_covers (fun _ => True) (some ruin)).2 ⟨_, value?_check_ruin, by
      intro table _
      exact ⟨trivial, fun _ _ => ⟨trivial, trivial⟩, fun _ _ => ⟨trivial, trivial, trivial⟩⟩⟩
  rw [Option.some.inj hdocument]
  exact hform

theorem validate_reports_faults_ruin : IsForm (fun _ => True) ruin ∧
    ∃ error : SchemaError, Schema.validate ruin = .error error ∧
      error.issues.map (fun issue => (issue.place, issue.code)) = [
        ("tables.0.name", "too_small"), ("tables.0.columns.0.type", "too_small"),
        ("tables.0.foreignKeys.0.referencedColumn", "too_small"),
        ("tables.0.foreignKeys.0.column", "custom"), ("tables.1.name", "too_small"),
        ("tables.1.name", "custom"), ("tables.0.foreignKeys.0.referencedTable", "custom")] := by
  obtain ⟨schema, htrimmed, -, hreport⟩ := validate_reports_faults isForm_ruin
  have hvalue := (check_reads (some ruin) schema).2 (congrArg some htrimmed)
  obtain rfl := Option.some.inj (hvalue.symm.trans value?_check_ruin)
  obtain ⟨error, herror, hissues, -⟩ := hreport (by decide)
  exact ⟨isForm_ruin, error, herror, by rw [hissues]; decide⟩

end Schema
end Scaffold
