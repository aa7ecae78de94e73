import Scaffold.Proofs.Dialect.Atoms
import Scaffold.Proofs.Entity.Origins
import Scaffold.Proofs.Rendering.Lines

/-!
What the line of a many-to-many association says of the keys of its join table. The line pairs the
column of each key with `id`, or leaves both out, and either way the columns that the keys refer to
are not looked at. So the line states them exactly if they are `id`, while an association by a key
names every other referenced column.
-/
namespace Scaffold

/-- A key that needs no mention, as its column and the referenced one are the defaults. -/
def ForeignKey.IsDefault (key : ForeignKey) : Prop :=
  key.column = Inflection.singular key.referencedTable ++ "_id" ∧ key.referencedColumn = "id"

namespace Dialect
namespace Ecto

/-- A column of a join table with the column that it refers to. -/
def joinPair (pair : String × String) : String := pair.1 ++ ": " ++ atom pair.2

def joinPairs (owning other : String × String) : String :=
  "join_keys: [" ++ ", ".intercalate [joinPair owning, joinPair other] ++ "]"

def joinParts (declaration : Declaration) (join : Table) : List String :=
  ["many_to_many " ++ atom declaration.name, declaration.subject,
    "join_through: " ++ Text.quote join.name]

/-- A line states the columns of the keys of a join table and the columns that they refer to. It
leaves them out only where all of them are the defaults. -/
inductive StatesColumns (declaration : Declaration) (join : Table) (owning other : ForeignKey)
    (line : String) : Prop
  | written (h : line = ", ".intercalate (joinParts declaration join ++
      [joinPairs (owning.column, owning.referencedColumn) (other.column, other.referencedColumn)]))
  | leftOut (h : line = ", ".intercalate (joinParts declaration join))
      (howning : owning.IsDefault) (hother : other.IsDefault)

theorem joinKeys_eq_joinPairs (owning other : String × String) :
    joinKeys owning other =
      joinPairs (owning.1, Entity.defaultReferenced) (other.1, Entity.defaultReferenced) := by
  have hatom : atom Entity.defaultReferenced = ":id" := by decide +kernel
  rw [joinPairs, joinPair, joinPair, hatom, ← String.toList_inj]
  simp [joinKeys]

theorem joinPairs_inj {column column' first second first' second' : String} :
    joinPairs (column, first) (column', second) = joinPairs (column, first') (column', second') ↔
      first = first' ∧ second = second' := by
  constructor
  · intro h
    have hpairs : joinPair (column, first) ++ ", " ++ joinPair (column', second) ++ "]" =
        joinPair (column, first') ++ ", " ++ joinPair (column', second') ++ "]" := by
      rw [joinPairs, joinPairs, String.append_assoc, String.append_assoc,
        String.append_right_inj] at h
      exact h
    simp only [joinPair, String.append_assoc, String.append_right_inj] at hpairs
    have hlists := congrArg String.toList hpairs
    have hcomma : ", ".toList = [',', ' '] := rfl
    have hbracket : "]".toList = [']'] := rfl
    simp only [String.toList_append, hcomma, hbracket, List.cons_append] at hlists
    obtain ⟨hfirst, hrest⟩ := atom_append_inj (by decide) (by decide) hlists
    simp only [List.cons.injEq, List.append_cancel_left_eq, true_and] at hrest
    exact ⟨hfirst, (atom_append_inj (by decide) (by decide) hrest).1⟩
  · rintro ⟨rfl, rfl⟩
    rfl

theorem intercalate_joinParts_append (declaration : Declaration) (join : Table) (option : String) :
    ", ".intercalate (joinParts declaration join ++ [option]) =
      ", ".intercalate (joinParts declaration join) ++ (", " ++ option) := by
  rw [← String.append_assoc]
  rfl

theorem intercalate_joinParts_ne (declaration : Declaration) (join : Table) (option : String) :
    ", ".intercalate (joinParts declaration join ++ [option]) ≠
      ", ".intercalate (joinParts declaration join) := by
  rw [intercalate_joinParts_append]
  intro h
  have hlength := congrArg String.length h
  have hcomma : ", ".length = 2 := rfl
  rw [String.length_append, String.length_append] at hlength
  omega

end Ecto
end Dialect

namespace Entity

open Dialect Dialect.Ecto

variable {path : Option String} {schema : Schema} {table join : Table} {owning other : ForeignKey}
  {declaration : Declaration}

/-- A join table gives the entity of a table an association, by its key that refers to the table
and the other one. -/
structure GivenBy (path : Option String) (schema : Schema) (table join : Table)
    (owning other : ForeignKey) (declaration : Declaration) : Prop where
  join_mem : join ∈ schema.tables
  isJoin : join.isJoin = true
  ends : (owning, other) ∈ join.ends
  refers : owning.referencedTable = table.name
  eq_told : declaration =
    toldJoined path schema table (manyToMany path table.name join owning other)

theorem GivenBy.mem_told (h : GivenBy path schema table join owning other declaration) :
    declaration ∈ (told path schema table).declarations := by
  refine mem_told_iff.2 (.inr ⟨manyToMany path table.name join owning other, ?_, h.eq_told.symm⟩)
  exact mem_joined_iff.2
    ⟨join, h.join_mem, h.isJoin, owning, other, h.ends, h.refers, rfl⟩

theorem GivenBy.kind_eq (h : GivenBy path schema table join owning other declaration) :
    declaration.kind = .manyToMany := by
  rw [h.eq_told]
  rfl

theorem GivenBy.joinTable_eq (h : GivenBy path schema table join owning other declaration) :
    declaration.options.joinTable = some join.name := by
  rw [h.eq_told]
  rfl

theorem GivenBy.joinKeys_eq (h : GivenBy path schema table join owning other declaration) :
    declaration.options.joinKeys =
      if owning.column = Naming.defaultKey owning.referencedTable ∧
          other.column = Naming.defaultKey other.referencedTable then none
      else some (.ofPairs (owning.column, owning.referencedTable)
        (other.column, other.referencedTable)) := by
  rw [h.eq_told, h.refers]
  rfl

/-- The line of an association by a join table. Nothing in it comes from a referenced column. -/
theorem GivenBy.write_eq (h : GivenBy path schema table join owning other declaration) :
    Rendering.write ecto declaration = ", ".intercalate (joinParts declaration join ++
      if owning.column = Naming.defaultKey owning.referencedTable ∧
          other.column = Naming.defaultKey other.referencedTable then []
      else [joinPairs (owning.column, defaultReferenced) (other.column, defaultReferenced)]) := by
  have hoptions : Rendering.options ecto declaration =
      ("join_through: " ++ Text.quote join.name) ::
        (ecto.option? declaration.options .joinKeys).toList := by
    have horder : ecto.optionOrder .manyToMany = [.joinTable, .joinKeys] := rfl
    have htable : ecto.option? declaration.options .joinTable =
        some ("join_through: " ++ Text.quote join.name) := by
      rw [option?, h.joinTable_eq]
      rfl
    rw [Rendering.options, h.kind_eq, horder, List.filterMap_cons_some htable]
    cases hkeys : ecto.option? declaration.options .joinKeys with
    | none => rw [List.filterMap_cons_none hkeys, List.filterMap_nil, Option.toList_none]
    | some text => rw [List.filterMap_cons_some hkeys, List.filterMap_nil, Option.toList_some]
  have hsubject : Rendering.subject ecto declaration = declaration.subject := by
    rw [Rendering.subject, if_neg (by simp [h.kind_eq])]
  have hkeyword : ecto.keyword declaration.kind = "many_to_many" := by
    rw [h.kind_eq]
    rfl
  rw [Rendering.write, hoptions, hsubject, hkeyword, option?, h.joinKeys_eq]
  split
  · rfl
  · have hkeys : ecto.joinKeys (owning.column, owning.referencedTable)
        (other.column, other.referencedTable) = joinPairs (owning.column, defaultReferenced)
          (other.column, defaultReferenced) := joinKeys_eq_joinPairs _ _
    simp only [Option.bind_some, JoinKeys.pairs?_ofPairs, Option.map_some, hkeys]
    rfl

theorem statesColumns_write_iff (h : GivenBy path schema table join owning other declaration) :
    StatesColumns declaration join owning other (Rendering.write ecto declaration) ↔
      owning.referencedColumn = defaultReferenced ∧ other.referencedColumn = defaultReferenced := by
  have hwrite := h.write_eq
  by_cases hdefaults : owning.column = Naming.defaultKey owning.referencedTable ∧
      other.column = Naming.defaultKey other.referencedTable
  · rw [if_pos hdefaults, List.append_nil] at hwrite
    constructor
    · intro hstates
      cases hstates with
      | written hline => exact absurd (hline.symm.trans hwrite) (intercalate_joinParts_ne _ _ _)
      | leftOut _ howning hother => exact ⟨howning.2, hother.2⟩
    · rintro ⟨howning, hother⟩
      exact .leftOut hwrite ⟨hdefaults.1, howning⟩ ⟨hdefaults.2, hother⟩
  · rw [if_neg hdefaults] at hwrite
    constructor
    · intro hstates
      cases hstates with
      | written hline =>
        rw [hwrite, intercalate_joinParts_append, intercalate_joinParts_append,
          String.append_right_inj, String.append_right_inj, joinPairs_inj] at hline
        exact ⟨hline.1.symm, hline.2.symm⟩
      | leftOut hline => exact absurd (hwrite.symm.trans hline) (intercalate_joinParts_ne _ _ _)
    · rintro ⟨howning, hother⟩
      refine .written ?_
      rw [hwrite, howning, hother]

/-- Every many-to-many association of an entity is given by a join table. Its line is written
without a warning, and it states what the two keys refer to exactly if they refer to `id`. -/
theorem manyToMany_statesColumns_iff {document : Document}
    (hschema : Schema.validate document = .ok schema) (path : Option String)
    (htable : table ∈ schema.tables) :
    ∃ entity, build path schema table.name = .ok entity ∧
      ∀ declaration ∈ entity.declarations, declaration.kind = .manyToMany →
        (∃ join owning other, GivenBy path schema table join owning other declaration) ∧
        ∀ join owning other, GivenBy path schema table join owning other declaration →
          ∃ line, (∀ logger, Rendering.line ecto logger (.known declaration) = pure line) ∧
            (StatesColumns declaration join owning other line ↔
              owning.referencedColumn = "id" ∧ other.referencedColumn = "id") := by
  refine ⟨told path schema table, build_eq (Schema.validate_valid hschema) htable, ?_⟩
  intro declaration hmem hkind
  constructor
  · obtain ⟨join, hjoin, his, owning, other, hends, hrefers, heq⟩ :=
      exists_ends_of_manyToMany hmem hkind
    exact ⟨join, owning, other, hjoin, his, hends, hrefers, heq⟩
  · intro join owning other hgiven
    refine ⟨Rendering.write ecto declaration, fun logger => ?_, statesColumns_write_iff hgiven⟩
    have hfield : declaration.kind ≠ .field := by simp [hkind]
    have hwritable := Rendering.isWritable_iff.2
      (Rendering.writable_of_paired (paired_of_mem_told hmem) ecto)
    simp [Rendering.line, Rendering.isPrimaryKey, Rendering.isVectorField, hfield, hwritable]

def members : Table where
  name := "members"
  columns := [{ name := "id", type := "uuid" }, { name := "code", type := "text" }]
  foreignKeys := []

def clubs : Table where
  name := "clubs"
  columns := [{ name := "id", type := "uuid" }]
  foreignKeys := []

def memberKey : ForeignKey := ⟨"member_code", "members", "code"⟩

def clubKey : ForeignKey := ⟨"club_id", "clubs", "id"⟩

def memberships : Table where
  name := "memberships"
  columns := [{ name := "member_code", type := "text" }, { name := "club_id", type := "uuid" }]
  foreignKeys := [memberKey, clubKey]

/-- The members of clubs are known in them by a code of their own. -/
def town : Schema where
  tables := [members, clubs, memberships]

theorem validate_town : Schema.validate town.toDocument = .ok town := by rfl

theorem manyToMany_statesColumns_iff_town :
    Schema.validate town.toDocument = .ok town ∧ clubs ∈ town.tables ∧
      ∃ entity, build none town clubs.name = .ok entity ∧
        ∀ declaration ∈ entity.declarations, declaration.kind = .manyToMany →
          (∃ join owning other, GivenBy none town clubs join owning other declaration) ∧
          ∀ join owning other, GivenBy none town clubs join owning other declaration →
            ∃ line, (∀ logger, Rendering.line ecto logger (.known declaration) = pure line) ∧
              (StatesColumns declaration join owning other line ↔
                owning.referencedColumn = "id" ∧ other.referencedColumn = "id") := by
  have hmem : clubs ∈ town.tables := by simp [town]
  exact ⟨validate_town, hmem, manyToMany_statesColumns_iff validate_town none hmem⟩

/-- The column that the members are known by is not in the line. -/
theorem town_not_statesColumns :
    Schema.validate town.toDocument = .ok town ∧ members ∈ town.tables ∧ members.isJoin = false ∧
      ∃ entity, build none town members.name = .ok entity ∧
        ∃ declaration ∈ entity.declarations,
          GivenBy none town members memberships memberKey clubKey declaration ∧
          Rendering.write ecto declaration =
            "many_to_many :clubs, Club, join_through: \"memberships\", " ++
              "join_keys: [member_code: :id, club_id: :id]" ∧
          ¬StatesColumns declaration memberships memberKey clubKey
            (Rendering.write ecto declaration) := by
  have hmem : members ∈ town.tables := List.mem_cons_self
  have hgiven : GivenBy none town members memberships memberKey clubKey
      (toldJoined none town members (manyToMany none "members" memberships memberKey clubKey)) :=
    ⟨by simp [town], by decide, by decide, rfl, rfl⟩
  refine ⟨validate_town, hmem, by decide, told none town members,
    build_eq (Schema.validate_valid validate_town) hmem, _, hgiven.mem_told, hgiven,
    by decide +kernel, ?_⟩
  rw [statesColumns_write_iff hgiven]
  decide

end Entity
end Scaffold
