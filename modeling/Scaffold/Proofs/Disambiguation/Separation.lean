import Scaffold.Proofs.Disambiguation.Renaming

/-!
When aliases tell the declarations of a list apart. The passes give some declarations an alias and
leave the others their names, and nothing looks whether an alias is taken. `names_nodup_iff` says
that names are distinct in the end exactly if of the declarations of each name at most one has
nothing to tell it from the others, and no alias is taken.
-/
namespace Scaffold

/-- Whether a declaration has something that tells it from others of its name: the column of its
key, or its join table. -/
def Declaration.isMarked (declaration : Declaration) : Bool :=
  match declaration.kind with
  | .field => false
  | .manyToMany => declaration.options.joinTable.isSome
  | _ => declaration.options.key.isSome

namespace Disambiguation

variable {among : List Declaration} {declaration : Declaration}

/-- Of the declarations of each name, at most one has nothing to tell it from the others. -/
def Separable (declarations : List Declaration) : Prop :=
  ∀ name, (declarations.filter fun declaration =>
    declaration.name == name && !declaration.isMarked).length ≤ 1

theorem separable_iff_pairwise {declarations : List Declaration} :
    Separable declarations ↔ declarations.Pairwise fun first second =>
      first.name = second.name → first.isMarked = true ∨ second.isMarked = true := by
  have hcount : ∀ name, (declarations.filter fun declaration =>
      declaration.name == name && !declaration.isMarked).length =
        (names (declarations.filter fun declaration => !declaration.isMarked)).count name := by
    intro name
    rw [names, List.count_eq_countP, List.countP_map, List.countP_eq_length_filter,
      List.filter_filter]
    rfl
  have hnodup : Separable declarations ↔
      (names (declarations.filter fun declaration => !declaration.isMarked)).Nodup := by
    rw [List.nodup_iff_count_le_one]
    apply forall_congr'
    intro name
    rw [hcount]
  rw [hnodup, names, List.Nodup, List.pairwise_map, List.pairwise_filter]
  apply List.Pairwise.iff
  intro first second
  cases first.isMarked <;> cases second.isMarked <;> simp

theorem keyAlias?_isSome (h : declaration.kind ≠ .manyToMany) :
    (keyAlias? declaration).isSome = declaration.isMarked := by
  cases hkind : declaration.kind <;> simp_all [keyAlias?, Declaration.isMarked]

/-- Beside others, an association by a key keeps its name exactly if the name does not collide or
nothing marks the association. -/
theorem given?_keyAlias?_eq_none_iff (h : declaration.kind ≠ .manyToMany) :
    given? among keyAlias? declaration = none ↔
      collides among declaration.name = false ∨ declaration.isMarked = false := by
  rw [← keyAlias?_isSome h, given?]
  cases collides among declaration.name <;> simp

theorem joinAlias?_ne_none (hcollides : collides among declaration.name = true)
    (hkind : declaration.kind = .manyToMany) (hmarked : declaration.isMarked = true) :
    joinAlias? among declaration ≠ none := by
  simp only [Declaration.isMarked, hkind] at hmarked
  obtain ⟨table, htable⟩ := Option.isSome_iff_exists.1 hmarked
  have hgiven : given? among tableAlias? declaration =
      some (Naming.associationName (declaration.name ++ "_by") table) := by
    simp [given?, tableAlias?, hcollides, hkind, htable]
  rw [joinAlias?, hgiven]
  simp

/-- A declaration that a table has alone, with the alias that the passes give it. -/
structure Labelled where
  original : Declaration
  alias? : Option String

namespace Labelled

def name (labelled : Labelled) : String := (labelled.original.under labelled.alias?).name

/-- No alias is the name that another declaration has in the end. -/
def AliasesFree (labelled : List Labelled) : Prop :=
  labelled.Pairwise fun first second =>
    first.alias?.isSome = true ∨ second.alias?.isSome = true → first.name ≠ second.name

/-- If an alias goes only to what is marked, and two declarations of one name that both keep it
are unmarked, then repeated names have no cause but these two. -/
theorem names_nodup_iff {labelled : List Labelled}
    (hunmarked : ∀ entry ∈ labelled, entry.original.isMarked = false → entry.alias? = none)
    (hkept : labelled.Pairwise fun first second => first.alias? = none → second.alias? = none →
      first.original.name = second.original.name →
        first.original.isMarked = false ∧ second.original.isMarked = false) :
    (labelled.map name).Nodup ↔
      Disambiguation.Separable (labelled.map original) ∧ AliasesFree labelled := by
  rw [List.Nodup, List.pairwise_map, Disambiguation.separable_iff_pairwise, List.pairwise_map,
    AliasesFree, ← List.pairwise_and_iff]
  simp only [List.pairwise_iff_forall_sublist] at hkept ⊢
  apply forall_congr'
  intro first
  apply forall_congr'
  intro second
  apply forall_congr'
  intro hsublist
  have hfirst := hunmarked first (hsublist.subset (by simp))
  have hsecond := hunmarked second (hsublist.subset (by simp))
  have hboth := hkept hsublist
  constructor
  · intro hne
    refine ⟨?_, fun _ => hne⟩
    intro hname
    by_contra hmarks
    simp only [not_or, Bool.not_eq_true] at hmarks
    apply hne
    rw [name, name, hfirst hmarks.1, hsecond hmarks.2]
    exact hname
  · rintro ⟨hmarks, hfree⟩ heq
    cases halias : first.alias? with
    | some given => exact hfree (.inl (by simp [halias])) heq
    | none =>
      cases halias' : second.alias? with
      | some given => exact hfree (.inr (by simp [halias'])) heq
      | none =>
        have hname : first.original.name = second.original.name := by
          simpa [name, halias, halias'] using heq
        have hneither := hboth halias halias' hname
        simpa [hneither] using hmarks hname

end Labelled
end Disambiguation
end Scaffold
