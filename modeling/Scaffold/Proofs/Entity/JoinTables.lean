import Scaffold.Proofs.Disambiguation.JoinKeys
import Scaffold.Proofs.Entity.Origins

/-!
The associations that a join table gives to the tables that it joins, one for each of its keys. Each
is derived for one of the tables, but the two agree on the join table and its columns whatever they
are named. If the join table joins a table to itself, both are in one entity, and the passes by join
tables tell them apart by the columns.
-/
namespace Scaffold

def Declaration.isThrough (join : String) (declaration : Declaration) : Bool :=
  declaration.kind == .manyToMany && declaration.options.joinTable == some join

/-- The associations of an entity through a join table, in their order. -/
def Entity.through (entity : Entity) (join : String) : List Declaration :=
  entity.declarations.filter (·.isThrough join)

theorem filter_flatMap_of_forall {α β : Type} {f : α → List β} {p : β → Bool} {q : α → Bool}
    (h : ∀ x, ∀ y ∈ f x, p y = q x) (l : List α) :
    (l.flatMap f).filter p = (l.filter q).flatMap f := by
  rw [List.filter_flatMap, ← flatMap_filter_of_eq_nil (p := q)]
  · apply List.flatMap_congr
    intro x hx
    rw [List.filter_eq_self]
    intro y hy
    rw [h x y hy, List.of_mem_filter hx]
  · intro x _ hx
    rw [List.filter_eq_nil_iff]
    intro y hy
    rw [h x y hy, hx]
    exact Bool.false_ne_true

namespace Disambiguation

variable {among : List Declaration} {declaration first second : Declaration} {phrase : String}

theorem collides_byJoinTable (hpair : [first, second].Sublist among)
    (hname : first.name = second.name) (hfirst : tableAlias? first = some phrase)
    (hsecond : tableAlias? second = some phrase) :
    collides (byJoinTable among) phrase = true := by
  have hcollides := collides_of_sublist hpair hname
  have hrenamed : ∀ declaration : Declaration, declaration.name = first.name →
      tableAlias? declaration = some phrase →
      (renamed among tableAlias? declaration).name = phrase := by
    intro declaration hsame hphrase
    rw [renamed_eq_ite, hsame, if_pos hcollides, hphrase]
    rfl
  have hpair' := hpair.map (renamed among tableAlias?)
  rw [← byJoinTable_eq_map] at hpair'
  have hname' : (renamed among tableAlias? first).name =
      (renamed among tableAlias? second).name := by
    rw [hrenamed first rfl hfirst, hrenamed second hname.symm hsecond]
  have hcollides' := collides_of_sublist hpair' hname'
  rwa [hrenamed first rfl hfirst] at hcollides'

theorem joinAlias?_eq_some {owning other : String × String}
    (hcollides : collides among declaration.name = true)
    (hcollides' : collides (byJoinTable among) phrase = true)
    (hkind : declaration.kind = .manyToMany) (hphrase : tableAlias? declaration = some phrase)
    (hkeys : declaration.options.joinKeys = some (.ofPairs owning other)) :
    joinAlias? among declaration = some (phrase ++ "_by_" ++ owning.1) := by
  have htable : given? among tableAlias? declaration = some phrase := by
    rw [given?, if_pos hcollides, hphrase]
  have hcolumn : columnAlias? (declaration.under (some phrase)) =
      some (phrase ++ "_by_" ++ owning.1) := by
    rw [columnAlias?_eq_some_iff]
    exact ⟨hkind, owning.1, _, _, hkeys, rfl⟩
  rw [joinAlias?, renamed, htable, given?, hcolumn]
  simp [hcollides']

end Disambiguation

namespace Entity

open Disambiguation

variable {path : Option String} {schema : Schema} {table join : Table} {first second : ForeignKey}

theorem filter_name_eq (hvalid : schema.Valid) (hjoin : join ∈ schema.tables) :
    (schema.tables.filter fun other => other.name == join.name) = [join] := by
  have hsame : ∀ other ∈ schema.tables, (other.name == join.name) = (other == join) := by
    intro other hother
    have hinj := List.inj_on_of_nodup_map hvalid.names_nodup hother hjoin
    rw [Bool.eq_iff_iff, beq_iff_eq, beq_iff_eq]
    exact ⟨fun h => hinj h, congrArg Table.name⟩
  have hnodup : schema.tables.Nodup := List.Nodup.of_map _ hvalid.names_nodup
  rw [List.filter_congr hsame, List.filter_beq, List.count_eq_one_of_mem hnodup hjoin]
  rfl

theorem filter_joinEnds (hvalid : schema.Valid) (hjoin : join ∈ schema.tables)
    (his : join.isJoin = true) (name : String) :
    ((joinEnds schema name).filter fun entry => entry.1.name == join.name) =
      (join.ends.filter fun ends => ends.1.referencedTable == name).map (join, ·) := by
  have hown : ∀ other : Table, ∀ entry ∈ (other.ends.filter fun ends =>
      ends.1.referencedTable == name).map (other, ·),
      (entry.1.name == join.name) = (other.name == join.name) := by
    intro other entry hentry
    obtain ⟨ends, -, rfl⟩ := List.mem_map.1 hentry
    rfl
  rw [joinEnds_eq, filter_flatMap_of_forall hown, List.filter_comm, filter_name_eq hvalid hjoin,
    List.filter_cons_of_pos his, List.filter_nil, List.flatMap_singleton]

def toldSide (path : Option String) (schema : Schema) (table join : Table)
    (owning other : ForeignKey) : Declaration :=
  toldJoined path schema table (manyToMany path table.name join owning other)

/-- The associations of a table through a join table are those by the keys of the join table that
refer to the table, in the order of the keys. -/
theorem through_told (hvalid : schema.Valid) (hjoin : join ∈ schema.tables)
    (his : join.isJoin = true) (path : Option String) (table : Table) :
    (told path schema table).through join.name =
      (join.ends.filter fun ends => ends.1.referencedTable == table.name).map
        fun ends => toldSide path schema table join ends.1 ends.2 := by
  have hkeyed : (byKey (keyed path schema table)).filter (·.isThrough join.name) = [] := by
    rw [List.filter_eq_nil_iff]
    intro declaration hmem
    simp [Declaration.isThrough, kind_ne_of_mem_byKey hmem]
  have hjoined : ((joined path schema table).filter (·.isThrough join.name)) =
      ((joinEnds schema table.name).filter fun entry => entry.1.name == join.name).map
        fun entry => manyToMany path table.name entry.1 entry.2.1 entry.2.2 := by
    rw [joined, List.filter_map]
    rfl
  rw [through, told, List.filter_append, hkeyed, List.nil_append, List.filter_map]
  change ((joined path schema table).filter (·.isThrough join.name)).map _ = _
  rw [hjoined, filter_joinEnds hvalid hjoin his, List.map_map, List.map_map]
  rfl

theorem through_told_of_keys (hvalid : schema.Valid) (hjoin : join ∈ schema.tables)
    (his : join.isJoin = true) (hkeys : join.foreignKeys = [first, second])
    (path : Option String) (table : Table) :
    (told path schema table).through join.name =
      (if first.referencedTable = table.name
        then [toldSide path schema table join first second] else []) ++
      if second.referencedTable = table.name
        then [toldSide path schema table join second first] else [] := by
  have hends : join.ends = [(first, second), (second, first)] := by simp [Table.ends, hkeys]
  rw [through_told hvalid hjoin his, hends]
  by_cases hfirst : first.referencedTable = table.name <;>
    by_cases hsecond : second.referencedTable = table.name <;>
      simp [hfirst, hsecond]

/-- What an association through a join table, by one of its keys, says of itself and of the entity
that it is to. -/
structure Side (join : Table) (owning : ForeignKey) (target : Entity) (declaration : Declaration) :
    Prop where
  joinTable_eq : declaration.options.joinTable = some join.name
  subject_eq : declaration.subject = target.moduleName
  /-- The column is stated unless it is the default. -/
  key_eq : declaration.options.key =
    if owning.column = Naming.defaultKey owning.referencedTable then none else some owning.column

/-- The associations by the two keys of a join table, in the entities that the keys refer to. -/
structure Sides (join : Table) (first second : ForeignKey) (entity back : Entity)
    (own other : Declaration) : Prop where
  through_own : entity.through join.name =
    if first.referencedTable = second.referencedTable then [own, other] else [own]
  through_other : back.through join.name =
    if first.referencedTable = second.referencedTable then [own, other] else [other]
  side_own : Side join first back own
  side_other : Side join second entity other
  /-- Neither states the keys, which have the default columns, or both do, each its own first. -/
  joinKeys : (own.options.joinKeys = none ∧ other.options.joinKeys = none ∧
      first.column = Naming.defaultKey first.referencedTable ∧
      second.column = Naming.defaultKey second.referencedTable ∧
      own.options.key = none ∧ other.options.key = none) ∨
    ∃ keys, own.options.joinKeys = some keys ∧ other.options.joinKeys = some keys.reverse ∧
      keys = .ofPairs (first.column, first.referencedTable) (second.column, second.referencedTable)

theorem side_toldSide {target : Table} {owning other : ForeignKey}
    (howning : table.name = owning.referencedTable) (hother : target.name = other.referencedTable) :
    Side join owning (told path schema target) (toldSide path schema table join owning other) where
  joinTable_eq := rfl
  subject_eq := by
    rw [toldSide, subject_toldJoined]
    exact congrArg (qualified path) hother.symm
  key_eq := by
    rw [← howning]
    rfl

theorem options_toldSide (path : Option String) (schema : Schema) (table join : Table)
    (owning other : ForeignKey) : (toldSide path schema table join owning other).options =
      (manyToMany path table.name join owning other).options := rfl

theorem joinKeys_manyToMany (path : Option String) (name : String) (join : Table)
    (owning other : ForeignKey) : (manyToMany path name join owning other).options.joinKeys =
      if owning.column = Naming.defaultKey name ∧
          other.column = Naming.defaultKey other.referencedTable then none
      else some (.ofPairs (owning.column, name) (other.column, other.referencedTable)) := rfl

theorem joinKeys_toldSide {owning other : ForeignKey}
    (howning : table.name = owning.referencedTable) :
    (toldSide path schema table join owning other).options.joinKeys =
      if owning.column = Naming.defaultKey owning.referencedTable ∧
          other.column = Naming.defaultKey other.referencedTable then none
      else some (.ofPairs (owning.column, owning.referencedTable)
        (other.column, other.referencedTable)) := by
  rw [options_toldSide, joinKeys_manyToMany, howning]

/-- The tables that a join table joins have an association each, or one table has both. -/
theorem through_sides (hvalid : schema.Valid) (hjoin : join ∈ schema.tables)
    (his : join.isJoin = true) (hkeys : join.foreignKeys = [first, second]) {target : Table}
    (htable : table ∈ schema.tables) (htarget : target ∈ schema.tables)
    (hname : table.name = first.referencedTable) (hname' : target.name = second.referencedTable)
    (path : Option String) :
    ((told path schema table).through join.name =
      if first.referencedTable = second.referencedTable
        then [toldSide path schema table join first second,
          toldSide path schema target join second first]
        else [toldSide path schema table join first second]) ∧
    (told path schema target).through join.name =
      if first.referencedTable = second.referencedTable
        then [toldSide path schema table join first second,
          toldSide path schema target join second first]
        else [toldSide path schema target join second first] := by
  rw [through_told_of_keys hvalid hjoin his hkeys, through_told_of_keys hvalid hjoin his hkeys,
    if_pos hname.symm, if_pos hname'.symm]
  by_cases hsame : first.referencedTable = second.referencedTable
  · have hnames : table.name = target.name := hname.trans (hsame.trans hname'.symm)
    obtain rfl := List.inj_on_of_nodup_map hvalid.names_nodup htable htarget hnames
    rw [if_pos hsame, if_pos hsame, if_pos hname.symm, if_pos hname'.symm]
    exact ⟨rfl, rfl⟩
  · rw [if_neg hsame, if_neg hsame, if_neg fun h => hsame (hname.symm.trans h.symm),
      if_neg fun h => hsame (h.trans hname')]
    exact ⟨rfl, rfl⟩

/-- The two associations that a join table gives agree, whichever tables it joins. -/
theorem sides_agree {document : Document} (hschema : Schema.validate document = .ok schema)
    (path : Option String) (hjoin : join ∈ schema.tables) (his : join.isJoin = true)
    (hkeys : join.foreignKeys = [first, second]) :
    ∃ entity back own other, build path schema first.referencedTable = .ok entity ∧
      build path schema second.referencedTable = .ok back ∧
      Sides join first second entity back own other := by
  have hvalid := Schema.validate_valid hschema
  have hfirst : first ∈ join.foreignKeys := by simp [hkeys]
  have hsecond : second ∈ join.foreignKeys := by simp [hkeys]
  obtain ⟨table, htable, hname⟩ := hvalid.exists_referenced hjoin hfirst
  obtain ⟨target, htarget, hname'⟩ := hvalid.exists_referenced hjoin hsecond
  have hown : Side join first (told path schema target) _ := side_toldSide hname hname'
  have hother : Side join second (told path schema table) _ := side_toldSide hname' hname
  obtain ⟨hthrough, hthrough'⟩ :=
    through_sides hvalid hjoin his hkeys htable htarget hname hname' path
  refine ⟨told path schema table, told path schema target, _, _, ?_, ?_, hthrough, hthrough', hown,
    hother, ?_⟩
  · rw [← hname]
    exact build_eq hvalid htable
  · rw [← hname']
    exact build_eq hvalid htarget
  · by_cases hdefault : first.column = Naming.defaultKey first.referencedTable ∧
        second.column = Naming.defaultKey second.referencedTable
    · left
      rw [joinKeys_toldSide hname, if_pos hdefault, joinKeys_toldSide hname', if_pos hdefault.symm,
        hown.key_eq, if_pos hdefault.1, hother.key_eq, if_pos hdefault.2]
      exact ⟨rfl, rfl, hdefault.1, hdefault.2, rfl, rfl⟩
    · right
      rw [joinKeys_toldSide hname, if_neg hdefault, joinKeys_toldSide hname',
        if_neg fun h => hdefault h.symm]
      exact ⟨_, rfl, rfl, rfl⟩

/-- Of the two columns only that of the proof is the default one. -/
def reviews : Table where
  name := "reviews"
  columns := [{ name := "reviewer_id", type := "uuid" }, { name := "proof_id", type := "uuid" }]
  foreignKeys := [⟨"reviewer_id", "humans", "id"⟩, ⟨"proof_id", "proofs", "id"⟩]

def faculty : Schema where
  tables := [humans, proofs, reviews]

theorem sides_agree_faculty :
    Schema.validate faculty.toDocument = .ok faculty ∧ reviews ∈ faculty.tables ∧
      reviews.isJoin = true ∧
      reviews.foreignKeys = [⟨"reviewer_id", "humans", "id"⟩, ⟨"proof_id", "proofs", "id"⟩] ∧
      ∃ entity back own other, build (some "App") faculty "humans" = .ok entity ∧
        build (some "App") faculty "proofs" = .ok back ∧
        Sides reviews ⟨"reviewer_id", "humans", "id"⟩ ⟨"proof_id", "proofs", "id"⟩ entity back own
          other := by
  have hschema : Schema.validate faculty.toDocument = .ok faculty := by rfl
  have hjoin : reviews ∈ faculty.tables := by decide
  have his : reviews.isJoin = true := by decide
  have hkeys : reviews.foreignKeys =
      [⟨"reviewer_id", "humans", "id"⟩, ⟨"proof_id", "proofs", "id"⟩] := rfl
  have hagree := sides_agree hschema (some "App") hjoin his hkeys
  exact ⟨hschema, hjoin, his, hkeys, hagree⟩

/-- What the pass by join tables names both associations of a table that is joined to itself. -/
def selfName (table join : Table) : String :=
  Naming.associationName (Inflection.plural table.name ++ "_by") join.name

/-- The two associations of a table that a join table joins to itself. -/
structure ToldApart (join table : Table) (first second : ForeignKey) (entity : Entity)
    (own other : Declaration) : Prop where
  through_eq : entity.through join.name = [own, other]
  joinKeys : ∃ keys, own.options.joinKeys = some keys ∧ other.options.joinKeys = some keys.reverse ∧
    keys = .ofPairs (first.column, table.name) (second.column, table.name)
  name_own : own.name = selfName table join ++ "_by_" ++ first.column
  name_other : other.name = selfName table join ++ "_by_" ++ second.column
  name_ne : own.name ≠ other.name

theorem tableAlias?_manyToMany {owning other : ForeignKey}
    (hother : other.referencedTable = table.name) :
    tableAlias? (manyToMany path table.name join owning other) = some (selfName table join) := by
  rw [selfName, ← hother]
  rfl

theorem pair_sublist_merged (hvalid : schema.Valid) (hjoin : join ∈ schema.tables)
    (his : join.isJoin = true) (hkeys : join.foreignKeys = [first, second])
    (hfirst : first.referencedTable = table.name) (hsecond : second.referencedTable = table.name) :
    [manyToMany path table.name join first second,
      manyToMany path table.name join second first].Sublist (merged path schema table) := by
  have hends : join.ends.filter (fun ends => ends.1.referencedTable == table.name) =
      [(first, second), (second, first)] := by
    simp [Table.ends, hkeys, hfirst, hsecond]
  have hpair : [(join, first, second), (join, second, first)].Sublist
      (joinEnds schema table.name) := by
    have hfilter := filter_joinEnds hvalid hjoin his table.name
    rw [hends, List.map_cons, List.map_singleton] at hfilter
    rw [← hfilter]
    exact List.filter_sublist
  have hjoined := hpair.map fun entry =>
    manyToMany path table.name entry.1 entry.2.1 entry.2.2
  exact hjoined.trans joined_sublist_merged

theorem joinKeys_manyToMany_of_ne {owning other : ForeignKey}
    (hother : other.referencedTable = table.name) (hcolumns : owning.column ≠ other.column) :
    (manyToMany path table.name join owning other).options.joinKeys =
      some (.ofPairs (owning.column, table.name) (other.column, table.name)) := by
  rw [joinKeys_manyToMany, hother, if_neg]
  rintro ⟨howning, hdefault⟩
  exact hcolumns (howning.trans hdefault.symm)

theorem name_toldSide {owning other : ForeignKey} (hother : other.referencedTable = table.name)
    (hcolumns : owning.column ≠ other.column)
    (hcollides : collides (merged path schema table)
      (manyToMany path table.name join owning other).name = true)
    (hcollides' : collides (byJoinTable (merged path schema table)) (selfName table join) = true) :
    (toldSide path schema table join owning other).name =
      selfName table join ++ "_by_" ++ owning.column := by
  have halias := joinAlias?_eq_some hcollides hcollides' rfl (tableAlias?_manyToMany hother)
    (joinKeys_manyToMany_of_ne hother hcolumns)
  rw [toldSide, toldJoined, halias]
  rfl

/-- The pass by join tables names both associations alike, so the pass by join columns has to tell
them apart, and it does. -/
theorem selfJoin_told_apart {document : Document} (hschema : Schema.validate document = .ok schema)
    (path : Option String) (htable : table ∈ schema.tables) (hjoin : join ∈ schema.tables)
    (his : join.isJoin = true) (hkeys : join.foreignKeys = [first, second])
    (hfirst : first.referencedTable = table.name) (hsecond : second.referencedTable = table.name)
    (hcolumns : first.column ≠ second.column) :
    ∃ entity own other, build path schema table.name = .ok entity ∧
      ToldApart join table first second entity own other := by
  have hvalid := Schema.validate_valid hschema
  have hpair : List.Sublist _ (merged path schema table) :=
    pair_sublist_merged hvalid hjoin his hkeys hfirst hsecond
  have hsame : (manyToMany path table.name join first second).name =
      (manyToMany path table.name join second first).name :=
    congrArg Inflection.plural (hsecond.trans hfirst.symm)
  have hcollides := collides_of_sublist hpair hsame
  have hcollides' := collides_byJoinTable hpair hsame (tableAlias?_manyToMany hsecond)
    (tableAlias?_manyToMany hfirst)
  have hname := name_toldSide hsecond hcolumns hcollides hcollides'
  have hname' := name_toldSide hfirst hcolumns.symm (hsame ▸ hcollides) hcollides'
  refine ⟨told path schema table, _, _, build_eq hvalid htable, ?_, ?_, hname, hname', ?_⟩
  · rw [through_told_of_keys hvalid hjoin his hkeys, if_pos hfirst, if_pos hsecond]
    rfl
  · rw [options_toldSide, options_toldSide, joinKeys_manyToMany_of_ne hsecond hcolumns,
      joinKeys_manyToMany_of_ne hfirst hcolumns.symm]
    exact ⟨_, rfl, rfl, rfl⟩
  · rw [hname, hname', Ne, String.append_right_inj]
    exact hcolumns

theorem selfJoin_told_apart_follows :
    Schema.validate circle.toDocument = .ok circle ∧ humans ∈ circle.tables ∧
      follows ∈ circle.tables ∧ follows.isJoin = true ∧
      follows.foreignKeys = [⟨"follower_id", "humans", "id"⟩, ⟨"followed_id", "humans", "id"⟩] ∧
      "follower_id" ≠ "followed_id" ∧
      ∃ entity own other, build none circle humans.name = .ok entity ∧
        ToldApart follows humans ⟨"follower_id", "humans", "id"⟩ ⟨"followed_id", "humans", "id"⟩
          entity own other := by
  have htable : humans ∈ circle.tables := by decide
  have hjoin : follows ∈ circle.tables := by decide
  have his : follows.isJoin = true := by decide
  have hcolumns : "follower_id" ≠ "followed_id" := by decide
  exact ⟨validate_circle, htable, hjoin, his, rfl, hcolumns,
    selfJoin_told_apart validate_circle none htable hjoin his rfl rfl rfl hcolumns⟩

end Entity
end Scaffold
