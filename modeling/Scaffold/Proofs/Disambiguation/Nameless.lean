import Scaffold.Proofs.Disambiguation.Renaming
import Scaffold.Proofs.Naming.Emptiness

/-!
Which declarations the passes leave without a name. A pass by join tables never gives an empty
alias. The pass by keys gives one only if the column is the ending of keys alone and the name that
collides has an empty singular.
-/
namespace Scaffold
namespace Disambiguation

variable {among : List Declaration} {declaration : Declaration}

/-- The pass by keys leaves the declaration without a name: it has none and is given none, or its
column and its name leave nothing of the one it is given. -/
inductive Nameless (among : List Declaration) (declaration : Declaration) : Prop
  | kept (hname : declaration.name = "") (hgiven : given? among keyAlias? declaration = none)
  | given (hcollides : collides among declaration.name = true)
      (hkind : declaration.kind ≠ .field)
      (hkey : declaration.options.key = some Naming.keySuffix)
      (hname : declaration.name ∈ ["", "s", "S"])

theorem given?_keyAlias?_eq_some_iff {name : String} :
    given? among keyAlias? declaration = some name ↔
      collides among declaration.name = true ∧ declaration.kind ≠ .field ∧
        ∃ column, declaration.options.key = some column ∧
          Naming.associationName column declaration.name = name := by
  simp [given?, keyAlias?, Option.map_eq_some_iff]

theorem associationName_eq_empty_iff_of_ne {column base : String} (hcolumn : column ≠ "") :
    Naming.associationName column base = "" ↔
      column = Naming.keySuffix ∧ base ∈ ["", "s", "S"] := by
  rw [Naming.associationName_eq_empty_iff, Naming.stripKeySuffix_eq_empty_iff,
    Inflection.singular_eq_empty_iff]
  simp [hcolumn, Naming.keySuffix]

theorem name_renamed_eq_empty_iff (hkey : ∀ column ∈ declaration.options.key, column ≠ "") :
    (renamed among keyAlias? declaration).name = "" ↔ Nameless among declaration := by
  rw [renamed, Declaration.name_under]
  constructor
  · intro hempty
    cases hgiven : given? among keyAlias? declaration with
    | none =>
      rw [hgiven] at hempty
      exact .kept hempty hgiven
    | some name =>
      rw [hgiven] at hempty
      obtain ⟨hcollides, hkind, column, hcolumn, hname⟩ := given?_keyAlias?_eq_some_iff.1 hgiven
      have hboth := (associationName_eq_empty_iff_of_ne (hkey column hcolumn)).1
        (hname.trans hempty)
      exact .given hcollides hkind (hboth.1 ▸ hcolumn) hboth.2
  · intro hnameless
    cases hnameless with
    | kept hname hgiven =>
      rw [hgiven]
      exact hname
    | given hcollides hkind hcolumn hname =>
      have hempty := (associationName_eq_empty_iff_of_ne (hkey _ hcolumn)).2 ⟨rfl, hname⟩
      have hgiven : given? among keyAlias? declaration = some "" :=
        given?_keyAlias?_eq_some_iff.2 ⟨hcollides, hkind, _, hcolumn, hempty⟩
      rw [hgiven]
      rfl

theorem alias?_of_given? {alias? : Declaration → Option String} {name : String}
    (h : given? among alias? declaration = some name) : alias? declaration = some name := by
  by_cases hcollides : collides among declaration.name = true
  · rwa [given?, if_pos hcollides] at h
  · rw [given?, if_neg hcollides] at h
    cases h

theorem tableAlias?_ne_empty {name : String} (h : tableAlias? declaration = some name) :
    name ≠ "" := by
  by_cases hkind : declaration.kind = .manyToMany
  · rw [tableAlias?, if_pos hkind] at h
    obtain ⟨table, -, hname⟩ := Option.map_eq_some_iff.1 h
    rw [← hname]
    exact Naming.associationName_by_ne_empty declaration.name table
  · rw [tableAlias?, if_neg hkind] at h
    cases h

theorem columnAlias?_ne_empty {name : String} (h : columnAlias? declaration = some name) :
    name ≠ "" := by
  by_cases hkind : declaration.kind = .manyToMany
  · rw [columnAlias?, if_pos hkind] at h
    obtain ⟨column, -, hname⟩ := Option.map_eq_some_iff.1 h
    rw [← hname]
    simp
  · rw [columnAlias?, if_neg hkind] at h
    cases h

theorem joinAlias?_ne_empty {name : String} (h : joinAlias? among declaration = some name) :
    name ≠ "" := by
  rw [joinAlias?, Option.or_eq_some_iff] at h
  rcases h with hcolumn | ⟨-, htable⟩
  · exact columnAlias?_ne_empty (alias?_of_given? hcolumn)
  · exact tableAlias?_ne_empty (alias?_of_given? htable)

end Disambiguation
end Scaffold
