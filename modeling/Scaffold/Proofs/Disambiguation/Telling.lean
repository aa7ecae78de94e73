import Scaffold.Proofs.Disambiguation.Renaming

/-!
What a pass makes of one declaration. A pass knows other names for some declarations, and gives them
to those whose name occurs twice or more in the list; every other declaration it returns as it is.
`told_iff` says that the passes do this.
-/
namespace Scaffold
namespace Disambiguation

/-- What a pass makes of a declaration among others, by the names that it has for it. -/
inductive Told (Alias : Declaration → String → Prop) (among : List Declaration)
    (before : Declaration) : Declaration → Prop
  | renamed {name : String} (htwice : 2 ≤ (names among).count before.name)
      (hname : Alias before name) : Told Alias among before (before.rename name)
  | kept (hnot : ¬(2 ≤ (names among).count before.name ∧ ∃ name, Alias before name)) :
      Told Alias among before before

/-- An association with a key is named after the column of the key, be it the empty text. -/
def KeyAlias (declaration : Declaration) (name : String) : Prop :=
  declaration.kind ≠ .field ∧ ∃ column, declaration.options.key = some column ∧
    Naming.associationName column declaration.name = name

def TableAlias (declaration : Declaration) (name : String) : Prop :=
  declaration.kind = .manyToMany ∧ ∃ table, declaration.options.joinTable = some table ∧
    Naming.associationName (declaration.name ++ "_by") table = name

/-- A many-to-many association is named after the column of its first join key, whatever else the
two keys hold. -/
def ColumnAlias (declaration : Declaration) (name : String) : Prop :=
  declaration.kind = .manyToMany ∧ ∃ column table second,
    declaration.options.joinKeys = some [[.text column, table], second] ∧
      declaration.name ++ "_by_" ++ column = name

variable {among : List Declaration} {before after declaration : Declaration} {name : String}

theorem keyAlias?_eq_some_iff : keyAlias? declaration = some name ↔ KeyAlias declaration name := by
  rw [keyAlias?, KeyAlias]
  by_cases hkind : declaration.kind = .field
  · simp [hkind]
  · simp [hkind, Option.map_eq_some_iff]

theorem tableAlias?_eq_some_iff :
    tableAlias? declaration = some name ↔ TableAlias declaration name := by
  rw [tableAlias?, TableAlias]
  by_cases hkind : declaration.kind = .manyToMany
  · simp [hkind, Option.map_eq_some_iff]
  · simp [hkind]

theorem told_iff {Alias : Declaration → String → Prop} {alias? : Declaration → Option String}
    (halias : ∀ name, alias? before = some name ↔ Alias before name) :
    Told Alias among before after ↔ after = renamed among alias? before := by
  rw [renamed_eq_ite]
  constructor
  · intro htold
    cases htold with
    | renamed htwice hname =>
      rw [if_pos (collides_eq_true_iff.2 htwice), (halias _).2 hname]
      rfl
    | kept hnot =>
      by_cases hcollides : collides among before.name = true
      · have hnone : alias? before = none := by
          rw [Option.eq_none_iff_forall_ne_some]
          intro name hsome
          exact hnot ⟨collides_eq_true_iff.1 hcollides, name, (halias name).1 hsome⟩
        rw [if_pos hcollides, hnone, Declaration.under_none]
      · rw [if_neg hcollides]
  · rintro rfl
    by_cases hcollides : collides among before.name = true
    · rw [if_pos hcollides]
      cases hgiven : alias? before with
      | none =>
        refine .kept ?_
        rintro ⟨-, name, hname⟩
        rw [(halias name).2 hname] at hgiven
        cases hgiven
      | some name => exact .renamed (collides_eq_true_iff.1 hcollides) ((halias name).1 hgiven)
    · rw [if_neg hcollides]
      exact .kept fun h => hcollides (collides_eq_true_iff.2 h.1)

end Disambiguation
end Scaffold
