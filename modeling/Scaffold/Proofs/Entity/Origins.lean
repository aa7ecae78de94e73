import Scaffold.Proofs.Entity.Construction

/-!
Where the associations of an entity come from. Each is made of one foreign key: of the table
itself, of a table that refers to it, or, with the other key beside it, of a join table.
-/
namespace Scaffold

theorem flatMap_filter_of_eq_nil {α β : Type} {f : α → List β} {p : α → Bool} {l : List α}
    (h : ∀ x ∈ l, p x = false → f x = []) : (l.filter p).flatMap f = l.flatMap f := by
  induction l with
  | nil => rfl
  | cons x l ih =>
    have hrest := ih fun y hy => h y (List.mem_cons_of_mem x hy)
    cases hx : p x with
    | false =>
      have hnone := h x List.mem_cons_self hx
      rw [List.filter_cons_of_neg (by simp [hx]), List.flatMap_cons, hnone, hrest, List.nil_append]
    | true => rw [List.filter_cons_of_pos hx, List.flatMap_cons, List.flatMap_cons, hrest]

/-- The foreign keys of a join table, each with the other one. -/
def Table.ends (table : Table) : List (ForeignKey × ForeignKey) :=
  table.foreignKeys.zip table.foreignKeys.reverse

theorem Table.ends_eq {table : Table} {first second : ForeignKey}
    (h : table.joinKeys? = some (first, second)) :
    table.ends = [(first, second), (second, first)] := by
  rw [Table.joinKeys?] at h
  split at h
  · next first' second' hkeys =>
    split at h
    · simp only [Option.some.injEq, Prod.mk.injEq] at h
      obtain ⟨rfl, rfl⟩ := h
      simp [Table.ends, hkeys]
    · cases h
  · cases h

/-- The key of a join table beside the one at a position, looked up by its own position. -/
def Table.otherKey? (table : Table) (position : Nat) : Option ForeignKey :=
  if position ≤ 1 then table.foreignKeys[1 - position]? else none

namespace Entity

variable {path : Option String} {schema : Schema} {table : Table} {declaration : Declaration}

theorem mem_references_iff {name : String} {source : Table} {key : ForeignKey} :
    (source, key) ∈ references schema name ↔
      source ∈ schema.tables ∧ source.isJoin = false ∧ key ∈ source.foreignKeys ∧
        key.referencedTable = name := by
  simp only [references, List.mem_flatMap, List.mem_filter, List.mem_map, Prod.mk.injEq,
    Bool.not_eq_true', beq_iff_eq]
  constructor
  · rintro ⟨_, ⟨hsource, hjoin⟩, _, ⟨hkey, hname⟩, rfl, rfl⟩
    exact ⟨hsource, hjoin, hkey, hname⟩
  · rintro ⟨hsource, hjoin, hkey, hname⟩
    exact ⟨source, ⟨hsource, hjoin⟩, key, ⟨hkey, hname⟩, rfl, rfl⟩

theorem joinEnds_eq (schema : Schema) (name : String) :
    joinEnds schema name = (schema.tables.filter fun join => join.isJoin).flatMap fun join =>
      (join.ends.filter fun ends => ends.1.referencedTable == name).map (join, ·) := by
  rw [joinEnds]
  induction schema.tables with
  | nil => rfl
  | cons join tables ih =>
    rw [List.flatMap_cons, ih]
    cases hkeys : join.joinKeys? with
    | none =>
      have his : ¬join.isJoin = true := by simp [Table.isJoin, hkeys]
      rw [List.filter_cons_of_neg his, List.nil_append]
    | some keys =>
      have his : join.isJoin = true := by simp [Table.isJoin, hkeys]
      rw [List.filter_cons_of_pos his, List.flatMap_cons, Table.ends_eq hkeys]

/-- The keys of join tables that refer to a table, each with what its position says is the other. -/
def endsByPosition (schema : Schema) (name : String) :
    List (Table × ForeignKey × Option ForeignKey) :=
  (schema.tables.filter fun join => join.isJoin).flatMap fun join =>
    (join.foreignKeys.zipIdx.filter fun (key, _) => key.referencedTable == name).map
      fun (key, position) => (join, key, join.otherKey? position)

/-- The look-up by position always finds the other key. -/
theorem endsByPosition_eq (schema : Schema) (name : String) :
    endsByPosition schema name =
      (joinEnds schema name).map fun (join, owning, other) => (join, owning, some other) := by
  rw [joinEnds_eq, endsByPosition, List.map_flatMap]
  apply List.flatMap_congr
  intro join hmem
  have hjoin : join.isJoin = true := (List.mem_filter.1 hmem).2
  obtain ⟨first, second, hkeys⟩ := List.length_eq_two.1 (join.isJoin_iff.1 hjoin).1
  by_cases hfirst : first.referencedTable = name <;>
    by_cases hsecond : second.referencedTable = name <;>
      simp [Table.ends, Table.otherKey?, hkeys, hfirst, hsecond]

theorem mem_joinEnds_iff {name : String} {join : Table} {owning other : ForeignKey} :
    (join, owning, other) ∈ joinEnds schema name ↔
      join ∈ schema.tables ∧ join.isJoin = true ∧ (owning, other) ∈ join.ends ∧
        owning.referencedTable = name := by
  simp only [joinEnds_eq, List.mem_flatMap, List.mem_filter, List.mem_map, Prod.mk.injEq,
    beq_iff_eq]
  constructor
  · rintro ⟨_, ⟨hjoin, his⟩, _, ⟨hends, hname⟩, rfl, rfl⟩
    exact ⟨hjoin, his, hends, hname⟩
  · rintro ⟨hjoin, his, hends, hname⟩
    exact ⟨join, ⟨hjoin, his⟩, (owning, other), ⟨hends, hname⟩, rfl, rfl⟩

/-- What a table has alone before the passes by join tables: a field for each column without a key,
and an association for each key of the table and each key to it. -/
theorem mem_keyed_iff :
    declaration ∈ keyed path schema table ↔
      (∃ column ∈ table.columns, column.name ∉ table.keyColumns ∧ declaration = field column) ∨
      (∃ key ∈ table.foreignKeys, declaration = belongsTo path key) ∨
      ∃ source ∈ schema.tables, source.isJoin = false ∧
        ∃ key ∈ source.foreignKeys, key.referencedTable = table.name ∧
          declaration = inverse path table.name source key := by
  constructor
  · intro h
    simp only [keyed, fields, List.mem_append, List.mem_map, List.mem_filter] at h
    rcases h with (⟨column, ⟨hcolumn, hfree⟩, rfl⟩ | ⟨key, hkey, rfl⟩) |
      ⟨⟨source, key⟩, hreference, rfl⟩
    · exact .inl ⟨column, hcolumn, by simpa using hfree, rfl⟩
    · exact .inr (.inl ⟨key, hkey, rfl⟩)
    · obtain ⟨hsource, hjoin, hkey, hname⟩ := mem_references_iff.1 hreference
      exact .inr (.inr ⟨source, hsource, hjoin, key, hkey, hname, rfl⟩)
  · rintro (⟨column, hcolumn, hfree, rfl⟩ | ⟨key, hkey, rfl⟩ |
      ⟨source, hsource, hjoin, key, hkey, hname, rfl⟩)
    · have hmem : field column ∈ fields table :=
        List.mem_map_of_mem (List.mem_filter.2 ⟨hcolumn, by simpa using hfree⟩)
      exact List.mem_append_left _ (List.mem_append_left _ hmem)
    · exact List.mem_append_left _ (List.mem_append_right _ (List.mem_map_of_mem hkey))
    · have hreference := mem_references_iff.2 ⟨hsource, hjoin, hkey, hname⟩
      exact List.mem_append_right _ (List.mem_map.2 ⟨(source, key), hreference, rfl⟩)

theorem mem_joined_iff :
    declaration ∈ joined path schema table ↔
      ∃ join ∈ schema.tables, join.isJoin = true ∧
        ∃ owning other, (owning, other) ∈ join.ends ∧ owning.referencedTable = table.name ∧
          declaration = manyToMany path table.name join owning other := by
  constructor
  · intro h
    obtain ⟨⟨join, owning, other⟩, hends, rfl⟩ := List.mem_map.1 h
    obtain ⟨hjoin, his, hpair, hname⟩ := mem_joinEnds_iff.1 hends
    exact ⟨join, hjoin, his, owning, other, hpair, hname, rfl⟩
  · rintro ⟨join, hjoin, his, owning, other, hpair, hname, rfl⟩
    have hends := mem_joinEnds_iff.2 ⟨hjoin, his, hpair, hname⟩
    exact List.mem_map.2 ⟨(join, owning, other), hends, rfl⟩

theorem exists_key_of_belongsTo (h : declaration ∈ (told path schema table).declarations)
    (hkind : declaration.kind = .belongsTo) :
    ∃ key ∈ table.foreignKeys,
      declaration = toldKeyed path schema table (belongsTo path key) := by
  rcases mem_told_iff.1 h with ⟨original, hmem, rfl⟩ | ⟨original, hmem, rfl⟩
  · rw [kind_toldKeyed] at hkind
    rcases mem_keyed_iff.1 hmem with ⟨column, -, -, rfl⟩ | ⟨key, hkey, rfl⟩ |
      ⟨source, -, -, key, -, -, rfl⟩
    · cases hkind
    · exact ⟨key, hkey, rfl⟩
    · simp only [inverse] at hkind
      split at hkind <;> cases hkind
  · rw [kind_toldJoined, kind_of_mem_joined hmem] at hkind
    cases hkind

theorem exists_reference_of_inverse (h : declaration ∈ (told path schema table).declarations)
    (hkind : declaration.kind = .hasMany ∨ declaration.kind = .hasOne) :
    ∃ source ∈ schema.tables, source.isJoin = false ∧
      ∃ key ∈ source.foreignKeys, key.referencedTable = table.name ∧
        declaration = toldKeyed path schema table (inverse path table.name source key) := by
  rcases mem_told_iff.1 h with ⟨original, hmem, rfl⟩ | ⟨original, hmem, rfl⟩
  · rw [kind_toldKeyed] at hkind
    rcases mem_keyed_iff.1 hmem with ⟨column, -, -, rfl⟩ | ⟨key, -, rfl⟩ |
      ⟨source, hsource, hjoin, key, hkey, hname, rfl⟩
    · simp [field] at hkind
    · simp [belongsTo] at hkind
    · exact ⟨source, hsource, hjoin, key, hkey, hname, rfl⟩
  · rw [kind_toldJoined, kind_of_mem_joined hmem] at hkind
    simp at hkind

theorem exists_ends_of_manyToMany (h : declaration ∈ (told path schema table).declarations)
    (hkind : declaration.kind = .manyToMany) :
    ∃ join ∈ schema.tables, join.isJoin = true ∧
      ∃ owning other, (owning, other) ∈ join.ends ∧ owning.referencedTable = table.name ∧
        declaration =
          toldJoined path schema table (manyToMany path table.name join owning other) := by
  rcases mem_told_iff.1 h with ⟨original, hmem, rfl⟩ | ⟨original, hmem, rfl⟩
  · rw [kind_toldKeyed] at hkind
    exact absurd hkind (kind_ne_of_mem_keyed hmem)
  · obtain ⟨join, hjoin, his, owning, other, hpair, hname, rfl⟩ := mem_joined_iff.1 hmem
    exact ⟨join, hjoin, his, owning, other, hpair, hname, rfl⟩

theorem belongsTo_mem_told {key : ForeignKey} (h : key ∈ table.foreignKeys) :
    toldKeyed path schema table (belongsTo path key) ∈ (told path schema table).declarations := by
  refine mem_told_iff.2 (.inl ⟨belongsTo path key, ?_, rfl⟩)
  exact List.mem_append_left _ (List.mem_append_right _ (List.mem_map_of_mem h))

theorem inverse_mem_told {source : Table} {key : ForeignKey}
    (h : (source, key) ∈ references schema table.name) :
    toldKeyed path schema table (inverse path table.name source key) ∈
      (told path schema table).declarations := by
  refine mem_told_iff.2 (.inl ⟨inverse path table.name source key, ?_, rfl⟩)
  exact List.mem_append_right _ (List.mem_map.2 ⟨(source, key), h, rfl⟩)

end Entity
end Scaffold
