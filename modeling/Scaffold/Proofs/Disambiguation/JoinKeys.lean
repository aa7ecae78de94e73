import Scaffold.Proofs.Disambiguation.Telling

/-!
Join keys through the passes by join tables. Only the pass by join columns looks at them, only where
names collide, and of two keys it looks at the first alone: it has to be a column and one thing
more. `byJoinColumn_outcome` says when this pass fails and what it gives, `byJoins_outcome` the same
of both passes, the second of which meets the names that the first has given.
-/
namespace Scaffold
namespace Disambiguation

variable {among told declarations result : List Declaration} {declaration after : Declaration}
  {name column : String} {keys : JoinKeys} {error : ContractError}

theorem owningColumn_eq_ok_iff :
    owningColumn name keys = .ok column ↔
      ∃ table second, keys = [[.text column, table], second] := by
  constructor
  · intro h
    unfold owningColumn at h
    split at h
    · split at h
      · obtain rfl := Except.ok.inj h
        exact ⟨_, _, rfl⟩
      · cases h
    · cases h
  · rintro ⟨table, second, rfl⟩
    rfl

theorem exists_owningColumn_eq_error_iff :
    (∃ error, owningColumn name keys = .error error) ↔
      ¬∃ column table second, keys = [[.text column, table], second] := by
  have hok : ∀ column, owningColumn name keys = .ok column ↔
      ∃ table second, keys = [[.text column, table], second] := fun _ => owningColumn_eq_ok_iff
  simp only [← hok]
  cases owningColumn name keys <;> simp

theorem declarationName_of_owningColumn (h : owningColumn name keys = .error error) :
    error.declarationName = some name := by
  unfold owningColumn at h
  split at h
  · split at h
    · cases h
    · obtain rfl := Except.error.inj h
      rfl
  · obtain rfl := Except.error.inj h
    rfl

/-- A declaration on which the pass by join columns fails among others: its name collides, and its
join keys do not say the owning column. -/
structure Refused (among : List Declaration) (declaration : Declaration) (error : ContractError) :
    Prop where
  twice : 2 ≤ (names among).count declaration.name
  kind : declaration.kind = .manyToMany
  keys : ∃ keys, declaration.options.joinKeys = some keys ∧
    owningColumn declaration.name keys = .error error

structure FirstRefused (declarations : List Declaration) (declaration : Declaration)
    (error : ContractError) : Prop where
  refused : Refused declarations declaration error
  earlier : ∃ before after, declarations = before ++ declaration :: after ∧
    ∀ other ∈ before, ∀ error, ¬Refused declarations other error

theorem Refused.declarationName_eq (h : Refused among declaration error) :
    error.declarationName = some declaration.name := by
  obtain ⟨keys, -, hkeys⟩ := h.keys
  exact declarationName_of_owningColumn hkeys

/-- What the pass by join columns makes of a declaration among others. -/
def tellByColumn (among : List Declaration) (declaration : Declaration) :
    Except ContractError Declaration :=
  if collides among declaration.name then namedByJoinColumn declaration else .ok declaration

theorem byJoinColumn_eq_mapM (declarations : List Declaration) :
    byJoinColumn declarations = declarations.mapM (tellByColumn declarations) := rfl

theorem columnAlias?_eq_some_iff :
    columnAlias? declaration = some name ↔ ColumnAlias declaration name := by
  rw [columnAlias?, ColumnAlias]
  by_cases hkind : declaration.kind = .manyToMany
  · rw [if_pos hkind]
    constructor
    · intro h
      obtain ⟨column, hcolumn, hname⟩ := Option.map_eq_some_iff.1 h
      obtain ⟨keys, hkeys, htext⟩ := Option.bind_eq_some_iff.1 hcolumn
      have hok : owningColumn declaration.name keys = .ok column := by
        cases hread : owningColumn declaration.name keys <;> simp_all [Except.toOption]
      obtain ⟨table, second, rfl⟩ := owningColumn_eq_ok_iff.1 hok
      exact ⟨hkind, column, table, second, hkeys, hname⟩
    · rintro ⟨-, column, table, second, hkeys, rfl⟩
      rw [hkeys]
      rfl
  · simp [hkind]

theorem tellByColumn_eq_error_iff :
    tellByColumn among declaration = .error error ↔ Refused among declaration error := by
  rw [tellByColumn]
  constructor
  · intro h
    by_cases hcollides : collides among declaration.name = true
    · rw [if_pos hcollides, namedByJoinColumn] at h
      split at h
      · next keys hkind hkeys =>
        refine ⟨collides_eq_true_iff.1 hcollides, hkind, keys, hkeys, ?_⟩
        cases hcolumn : owningColumn declaration.name keys <;> simp_all [Except.map]
      · cases h
    · rw [if_neg hcollides] at h
      cases h
  · intro h
    obtain ⟨keys, hkeys, herror⟩ := h.keys
    rw [if_pos (collides_eq_true_iff.2 h.twice), namedByJoinColumn, h.kind, hkeys]
    simp [herror, Except.map]

theorem told_of_tellByColumn (h : tellByColumn among declaration = .ok after) :
    Told ColumnAlias among declaration after := by
  rw [told_iff fun _ => columnAlias?_eq_some_iff, renamed_eq_ite]
  by_cases hcollides : collides among declaration.name = true
  · rw [tellByColumn, if_pos hcollides] at h
    rw [if_pos hcollides]
    exact eq_under_of_namedByJoinColumn h
  · rw [tellByColumn, if_neg hcollides] at h
    rw [if_neg hcollides]
    exact (Except.ok.inj h).symm

theorem exists_refused_iff :
    (∃ error, Refused among declaration error) ↔
      2 ≤ (names among).count declaration.name ∧ declaration.kind = .manyToMany ∧
        ∃ keys, declaration.options.joinKeys = some keys ∧
          ¬∃ column table second, keys = [[.text column, table], second] := by
  constructor
  · rintro ⟨error, htwice, hkind, keys, hkeys, herror⟩
    exact ⟨htwice, hkind, keys, hkeys, exists_owningColumn_eq_error_iff.1 ⟨error, herror⟩⟩
  · rintro ⟨htwice, hkind, keys, hkeys, hform⟩
    obtain ⟨error, herror⟩ := exists_owningColumn_eq_error_iff.2 hform
    exact ⟨error, htwice, hkind, keys, hkeys, herror⟩

theorem exists_error_byJoinColumn_iff :
    (∃ error, byJoinColumn declarations = .error error) ↔
      ∃ declaration ∈ declarations, ∃ error, Refused declarations declaration error := by
  simp only [byJoinColumn_eq_mapM, exists_mapM_eq_error_iff, tellByColumn_eq_error_iff]

theorem exists_firstRefused (h : byJoinColumn declarations = .error error) :
    ∃ declaration, FirstRefused declarations declaration error := by
  obtain ⟨before, declaration, after, hsplit, hbefore, hrefused⟩ := mapM_eq_error_iff.1 h
  refine ⟨declaration, tellByColumn_eq_error_iff.1 hrefused, before, after, hsplit, ?_⟩
  intro other hother error herror
  obtain ⟨told, htold⟩ := hbefore other hother
  rw [← tellByColumn_eq_error_iff] at herror
  cases htold.symm.trans herror

theorem forall₂_told_of_byJoinColumn (h : byJoinColumn declarations = .ok result) :
    List.Forall₂ (Told ColumnAlias declarations) declarations result :=
  (mapM_eq_ok_iff.1 h).imp fun _ _ => told_of_tellByColumn

/-- The pass by join columns fails exactly if some many-to-many association whose name occurs twice
or more has join keys other than two of which the first is a column and one thing more. The error is
about the first such association. Else the pass names by this column, whatever the second key is. -/
theorem byJoinColumn_outcome (declarations : List Declaration) :
    ((∃ error, byJoinColumn declarations = .error error) ↔
      ∃ declaration ∈ declarations, 2 ≤ (names declarations).count declaration.name ∧
        declaration.kind = .manyToMany ∧ ∃ keys, declaration.options.joinKeys = some keys ∧
          ¬∃ column table second, keys = [[.text column, table], second]) ∧
    (∀ error, byJoinColumn declarations = .error error →
      ∃ declaration, FirstRefused declarations declaration error ∧
        error.declarationName = some declaration.name) ∧
    ∀ result, byJoinColumn declarations = .ok result →
      List.Forall₂ (Told ColumnAlias declarations) declarations result := by
  refine ⟨?_, ?_, fun result => forall₂_told_of_byJoinColumn⟩
  · rw [exists_error_byJoinColumn_iff]
    simp only [exists_refused_iff]
  · intro error herror
    obtain ⟨declaration, hfirst⟩ := exists_firstRefused herror
    exact ⟨declaration, hfirst, hfirst.refused.declarationName_eq⟩

/-- One pair has a second entry that is too short, the other a table that is no text. -/
def lopsided : List Declaration :=
  [{ kind := .manyToMany, name := "tags", subject := "App.Tag",
     options := { joinKeys := some [[.text "owner_id", .text "posts"], [.text "tag_id"]] } },
   { kind := .manyToMany, name := "tags", subject := "App.Tag",
     options := { joinKeys := some [[.text "post_id", .null], [.text "tag_id", .text "tags"]] } }]

theorem lopsided_told :
    (∀ declaration ∈ lopsided, 2 ≤ (names lopsided).count declaration.name ∧
      declaration.kind = .manyToMany ∧ ¬declaration.Paired) ∧
    ∃ result, byJoinColumn lopsided = .ok result ∧
      names result = ["tags_by_owner_id", "tags_by_post_id"] := by
  constructor
  · intro declaration hmem
    rw [lopsided, List.mem_pair] at hmem
    rcases hmem with rfl | rfl
    · refine ⟨by decide, rfl, ?_⟩
      intro hpaired
      obtain ⟨first, second, hkeys⟩ := hpaired _ rfl
      simp [JoinKeys.ofPairs] at hkeys
    · refine ⟨by decide, rfl, ?_⟩
      intro hpaired
      obtain ⟨first, second, hkeys⟩ := hpaired _ rfl
      simp [JoinKeys.ofPairs] at hkeys
  · exact ⟨_, rfl, by decide⟩

/-- The pass by join tables never fails. After it the pass by join columns fails exactly if it
refuses some declaration under the name that this has by then; the error names the first that it
refuses. Else each declaration has its name, changed by the first pass and then by the second. -/
theorem byJoins_outcome (declarations : List Declaration) :
    ∃ told, Pass.byJoinTable.run declarations = .ok told ∧
      List.Forall₂ (Told TableAlias declarations) declarations told ∧
      ((∃ error, byJoins declarations = .error error) ↔
        ∃ declaration ∈ told, ∃ error, Refused told declaration error) ∧
      (∀ error, byJoins declarations = .error error →
        ∃ declaration, FirstRefused told declaration error ∧
          error.declarationName = some declaration.name) ∧
      ∀ result, byJoins declarations = .ok result →
        List.Forall₂ (Told ColumnAlias told) told result := by
  refine ⟨byJoinTable declarations, rfl, ?_, exists_error_byJoinColumn_iff, ?_,
    fun result => forall₂_told_of_byJoinColumn⟩
  · rw [byJoinTable_eq_map, List.forall₂_map_right_iff, List.forall₂_same]
    intro declaration _
    exact (told_iff fun _ => tableAlias?_eq_some_iff).2 rfl
  · intro error herror
    obtain ⟨declaration, hfirst⟩ := exists_firstRefused herror
    exact ⟨declaration, hfirst, hfirst.refused.declarationName_eq⟩

example : byJoins (List.replicate 2
    { kind := .manyToMany, name := "posts", subject := "App.Post",
      options := { joinTable := some "likes",
                   joinKeys := some [[.text "user_id", .text "users"]] } }) =
    .error (.joinKeyCount "posts_by_likes" 1) := by
  decide +kernel

end Disambiguation
end Scaffold
