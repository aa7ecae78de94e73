import Scaffold.Proofs.Entity.Construction
import Scaffold.Proofs.Rendering.Lines

/-!
Which columns are written. The fields of an entity are those of the columns of its table, under
their own names, so what is left out of its module and what is reported can be said of the columns:
the primary key is left out, a column of a vector type is left out with a warning, and the others
are written, as the associations are.
-/
namespace Scaffold
namespace Naming

theorem fieldType_eq_or (type : String) :
    fieldType type = type ∨ isUnsupported type = false ∧ isUnsupported (fieldType type) = false := by
  rw [fieldType]
  cases hlookup : typeMap.lookup type with
  | none => exact .inl rfl
  | some mapped =>
    obtain ⟨before, after, htypes, -⟩ := List.lookup_eq_some_iff.1 hlookup
    have hmap : ∀ entry ∈ typeMap,
        isUnsupported entry.1 = false ∧ isUnsupported entry.2 = false := by decide
    exact .inr (hmap (type, mapped) (by simp [htypes]))

theorem isUnsupported_fieldType (type : String) :
    isUnsupported (fieldType type) = isUnsupported type := by
  rcases fieldType_eq_or type with h | ⟨hbefore, hafter⟩
  · rw [h]
  · rw [hbefore, hafter]

theorem fieldType_of_isUnsupported {type : String} (h : isUnsupported type = true) :
    fieldType type = type := by
  rcases fieldType_eq_or type with heq | ⟨hbefore, -⟩
  · exact heq
  · rw [hbefore] at h
    cases h

/-- The types that no field can have. -/
def IsVector (type : String) : Prop := "vector".toList <:+ type.toList

instance : DecidablePred IsVector := fun type =>
  inferInstanceAs (Decidable ("vector".toList <:+ type.toList))

theorem isUnsupported_iff (type : String) : isUnsupported type = true ↔ IsVector type :=
  List.isSuffixOf_iff_suffix

end Naming

namespace Entity

variable {path : Option String} {schema : Schema} {table : Table}

/-- The columns of a table that its entity has fields for, but for the primary key. -/
def ownColumns (table : Table) : List Column :=
  table.columns.filter fun column => column.name ≠ "id" ∧ column.name ∉ table.keyColumns

theorem toldKeyed_of_key_eq_none {declaration : Declaration}
    (h : declaration.options.key = none) :
    toldKeyed path schema table declaration = declaration := by
  have hgiven : Disambiguation.given? (keyed path schema table) Disambiguation.keyAlias?
      declaration = none := by
    simp [Disambiguation.given?, Disambiguation.keyAlias?, h]
  rw [toldKeyed, Disambiguation.renamed, hgiven, Declaration.under_none]

theorem filter_field_keyed (path : Option String) (schema : Schema) (table : Table) :
    (keyed path schema table).filter (!·.isAssociation) = fields table := by
  have hfields : (fields table).filter (!·.isAssociation) = fields table := by
    apply List.filter_eq_self.2
    intro declaration hmem
    obtain ⟨column, -, rfl⟩ := List.mem_map.1 hmem
    rfl
  have howned : (table.foreignKeys.map (belongsTo path)).filter (!·.isAssociation) = [] := by
    apply List.filter_eq_nil_iff.2
    intro declaration hmem
    obtain ⟨key, -, rfl⟩ := List.mem_map.1 hmem
    simp [Declaration.isAssociation, belongsTo]
  have hinverse : ∀ source key,
      (inverse path table.name source key).isAssociation = true := by
    intro source key
    simp only [Declaration.isAssociation, inverse]
    split <;> rfl
  rw [keyed, List.filter_append, List.filter_append, hfields, howned, List.append_nil,
    List.append_right_eq_self, List.filter_eq_nil_iff]
  intro declaration hmem
  obtain ⟨⟨source, key⟩, -, rfl⟩ := List.mem_map.1 hmem
  simp [hinverse source key]

/-- The fields of an entity are those of the columns of its table. -/
theorem filter_field_told_perm (path : Option String) (schema : Schema) (table : Table) :
    ((told path schema table).declarations.filter (!·.isAssociation)).Perm (fields table) := by
  have hjoined : ((joined path schema table).map (toldJoined path schema table)).filter
      (!·.isAssociation) = [] := by
    apply List.filter_eq_nil_iff.2
    intro declaration hmem
    obtain ⟨original, horiginal, rfl⟩ := List.mem_map.1 hmem
    simp [Declaration.isAssociation, kind_of_mem_joined horiginal]
  have hkeyed : ((keyed path schema table).map (toldKeyed path schema table)).filter
      (!·.isAssociation) = fields table := by
    have hkind : ((!·.isAssociation) ∘ toldKeyed path schema table : Declaration → Bool) =
        (!·.isAssociation) := rfl
    rw [List.filter_map, hkind, filter_field_keyed]
    conv_rhs => rw [← List.map_id (fields table)]
    apply List.map_congr_left
    intro declaration hmem
    obtain ⟨column, -, rfl⟩ := List.mem_map.1 hmem
    exact toldKeyed_of_key_eq_none rfl
  have hperm := (told_perm path schema table).filter (!·.isAssociation)
  rwa [List.filter_append, hkeyed, hjoined, List.append_nil] at hperm

theorem told_perm_fields (path : Option String) (schema : Schema) (table : Table) :
    (told path schema table).declarations.Perm
      (fields table ++ (told path schema table).declarations.filter (·.isAssociation)) := by
  have hsplit := List.filter_append_perm (!·.isAssociation) (told path schema table).declarations
  simp only [Bool.not_not] at hsplit
  exact hsplit.symm.trans ((filter_field_told_perm path schema table).append_right _)

end Entity

namespace Rendering

open Entity (field ownColumns told)

variable {declaration : Declaration}

theorem isLeftOut_of_isAssociation (h : declaration.isAssociation = true) :
    isLeftOut declaration = false := by
  have hkind : (declaration.kind == Kind.field) = false := by
    simpa [Declaration.isAssociation] using h
  simp [isLeftOut, isPrimaryKey, isVectorField, hkind]

theorem isVectorField_of_isAssociation (h : declaration.isAssociation = true) :
    isVectorField declaration = false := by
  have hleft := isLeftOut_of_isAssociation h
  rw [isLeftOut, Bool.or_eq_false_iff] at hleft
  exact hleft.2

theorem isVectorField_field_iff (column : Column) :
    isVectorField (field column) = true ↔
      column.name ≠ "id" ∧ Naming.IsVector column.type := by
  rw [← Naming.isUnsupported_iff, ← Naming.isUnsupported_fieldType]
  simp [isVectorField, field, primaryKey]

theorem not_isLeftOut_field_iff (column : Column) :
    (!isLeftOut (field column)) = true ↔
      column.name ≠ "id" ∧ ¬Naming.IsVector column.type := by
  have hprimary : isPrimaryKey (field column) = true ↔ column.name = "id" := by
    simp [isPrimaryKey, field, primaryKey]
  rw [isLeftOut, Bool.not_eq_true', ← Bool.not_eq_true, Bool.or_eq_true, hprimary,
    isVectorField_field_iff]
  tauto

/-- A test that the primary key fails keeps the fields of the own columns that it asks for. -/
theorem filter_fields (table : Table) {fieldTest : Declaration → Bool} {columnTest : Column → Prop}
    [DecidablePred columnTest]
    (h : ∀ column, fieldTest (field column) = true ↔ column.name ≠ "id" ∧ columnTest column) :
    (Entity.fields table).filter fieldTest =
      ((ownColumns table).filter fun column => columnTest column).map field := by
  have hcolumns : (table.columns.filter fun column => !table.keyColumns.contains column.name).filter
      (fieldTest ∘ field) = (ownColumns table).filter fun column => columnTest column := by
    rw [ownColumns, List.filter_filter, List.filter_filter]
    apply List.filter_congr
    intro column _
    rw [Bool.eq_iff_iff, Bool.and_eq_true, Function.comp_apply, h column]
    simp only [Bool.not_eq_true', List.contains_eq_mem, decide_eq_false_iff_not, Bool.and_eq_true,
      decide_eq_true_eq]
    tauto
  rw [Entity.fields, List.filter_map, hcolumns]

theorem reported_told_perm (path : Option String) (schema : Schema) (table : Table) :
    ((told path schema table).declarations.filter isVectorField).Perm
      (((ownColumns table).filter fun column => Naming.IsVector column.type).map field) := by
  have hassociations : ((told path schema table).declarations.filter
      (·.isAssociation)).filter isVectorField = [] := by
    apply List.filter_eq_nil_iff.2
    intro declaration hmem
    simp [isVectorField_of_isAssociation (List.mem_filter.1 hmem).2]
  have hperm := (Entity.told_perm_fields path schema table).filter isVectorField
  rwa [List.filter_append, hassociations, List.append_nil,
    filter_fields table isVectorField_field_iff] at hperm

/-- The declarations of an entity that are written: all associations are. -/
theorem kept_told_perm (path : Option String) (schema : Schema) (table : Table) :
    ((told path schema table).declarations.filter (!isLeftOut ·)).Perm
      (((ownColumns table).filter fun column => ¬Naming.IsVector column.type).map field ++
        (told path schema table).declarations.filter (·.isAssociation)) := by
  have hassociations : ((told path schema table).declarations.filter
      (·.isAssociation)).filter (!isLeftOut ·) =
        (told path schema table).declarations.filter (·.isAssociation) := by
    apply List.filter_eq_self.2
    intro declaration hmem
    simp [isLeftOut_of_isAssociation (List.mem_filter.1 hmem).2]
  have hperm := (Entity.told_perm_fields path schema table).filter (!isLeftOut ·)
  rwa [List.filter_append, hassociations, filter_fields table not_isLeftOut_field_iff] at hperm

def warning (name type : String) : Log.Entry where
  level := .warn
  message := "Field \"" ++ name ++ "\" has unsupported type \"" ++ type ++
    "\" and was left out. Add it by hand with a custom type."
  data := [("field", .text name), ("type", .text type)]

/-- A warning for each declaration that is a field of a vector type, in their order. -/
def fieldWarnings (declarations : List Declaration) : List Log.Entry :=
  (declarations.filter fun declaration => declaration.kind = .field ∧ declaration.name ≠ "id" ∧
    Naming.IsVector declaration.subject).map fun declaration =>
      warning declaration.name declaration.subject

theorem warnings_eq (declarations : List Declaration) :
    warnings declarations = fieldWarnings declarations := by
  have hfilter : declarations.filter isVectorField =
      declarations.filter fun declaration => declaration.kind = .field ∧
        declaration.name ≠ "id" ∧ Naming.IsVector declaration.subject := by
    apply List.filter_congr
    intro declaration _
    rw [Bool.eq_iff_iff]
    simp [isVectorField, primaryKey, Naming.isUnsupported_iff, and_assoc]
  rw [warnings, hfilter]
  rfl

end Rendering

end Scaffold
