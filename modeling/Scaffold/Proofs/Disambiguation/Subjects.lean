import Scaffold.Proofs.Disambiguation.Renaming

/-!
What declarations are to plays no part in what they are named. Neither the order of names nor a
collision nor an alias looks at the module of an association or the type of a field, so the passes
may as well run before these are replaced as after.
-/
namespace Scaffold

namespace Declaration

/-- A declaration with another type or module, which hangs on its kind. -/
def redirect (f : Kind → String → String) (declaration : Declaration) : Declaration :=
  { declaration with subject := f declaration.kind declaration.subject }

variable {f : Kind → String → String}

@[simp] theorem redirect_kind (declaration : Declaration) :
    (declaration.redirect f).kind = declaration.kind := rfl
@[simp] theorem redirect_name (declaration : Declaration) :
    (declaration.redirect f).name = declaration.name := rfl
@[simp] theorem redirect_subject (declaration : Declaration) :
    (declaration.redirect f).subject = f declaration.kind declaration.subject := rfl
@[simp] theorem redirect_options (declaration : Declaration) :
    (declaration.redirect f).options = declaration.options := rfl

theorem redirect_under (declaration : Declaration) (given : Option String) :
    (declaration.redirect f).under given = (declaration.under given).redirect f := rfl

end Declaration

namespace Disambiguation

variable {f : Kind → String → String}

@[simp] theorem names_redirect (f : Kind → String → String) (declarations : List Declaration) :
    names (declarations.map (·.redirect f)) = names declarations := by
  rw [names, List.map_map]
  rfl

theorem collides_redirect (f : Kind → String → String) (declarations : List Declaration) :
    collides (declarations.map (·.redirect f)) = collides declarations := by
  funext name
  rw [collides, collides, names_redirect]

theorem given?_redirect {alias? : Declaration → Option String}
    (halias : ∀ declaration : Declaration, alias? (declaration.redirect f) = alias? declaration)
    (among : List Declaration) (declaration : Declaration) :
    given? (among.map (·.redirect f)) alias? (declaration.redirect f) =
      given? among alias? declaration := by
  rw [given?, given?, collides_redirect, halias]
  rfl

theorem renamed_redirect {alias? : Declaration → Option String}
    (halias : ∀ declaration : Declaration, alias? (declaration.redirect f) = alias? declaration)
    (among : List Declaration) (declaration : Declaration) :
    renamed (among.map (·.redirect f)) alias? (declaration.redirect f) =
      (renamed among alias? declaration).redirect f := by
  rw [renamed, given?_redirect halias, Declaration.redirect_under]
  rfl

theorem insert_redirect (declaration : Declaration) (sorted : List Declaration) :
    insert (declaration.redirect f) (sorted.map (·.redirect f)) =
      (insert declaration sorted).map (·.redirect f) := by
  induction sorted with
  | nil => rfl
  | cons other rest ih =>
    rw [List.map_cons, insert, insert, ih, Declaration.redirect_name, Declaration.redirect_name]
    split <;> rfl

theorem inNameOrder_redirect (f : Kind → String → String) (declarations : List Declaration) :
    inNameOrder (declarations.map (·.redirect f)) =
      (inNameOrder declarations).map (·.redirect f) := by
  have hfold : ∀ sorted : List Declaration,
      (declarations.map (·.redirect f)).foldl (fun sorted declaration => insert declaration sorted)
          (sorted.map (·.redirect f)) =
        (declarations.foldl (fun sorted declaration => insert declaration sorted) sorted).map
          (·.redirect f) := by
    induction declarations with
    | nil => exact fun _ => rfl
    | cons declaration rest ih =>
      intro sorted
      rw [List.map_cons, List.foldl_cons, List.foldl_cons, insert_redirect, ih]
  exact hfold []

theorem map_renamed_redirect {alias? : Declaration → Option String}
    (halias : ∀ declaration : Declaration, alias? (declaration.redirect f) = alias? declaration)
    (among declarations : List Declaration) :
    (declarations.map (·.redirect f)).map (renamed (among.map (·.redirect f)) alias?) =
      (declarations.map (renamed among alias?)).map (·.redirect f) := by
  rw [List.map_map, List.map_map]
  apply List.map_congr_left
  intro declaration _
  exact renamed_redirect halias among declaration

theorem byKey_redirect (f : Kind → String → String) (declarations : List Declaration) :
    byKey (declarations.map (·.redirect f)) = (byKey declarations).map (·.redirect f) := by
  rw [byKey_eq_map, inNameOrder_redirect, map_renamed_redirect fun _ => rfl, ← byKey_eq_map]

theorem byJoinTable_redirect (f : Kind → String → String) (declarations : List Declaration) :
    byJoinTable (declarations.map (·.redirect f)) =
      (byJoinTable declarations).map (·.redirect f) := by
  rw [byJoinTable_eq_map, map_renamed_redirect fun _ => rfl, ← byJoinTable_eq_map]

theorem joinAlias?_redirect (f : Kind → String → String) (among : List Declaration)
    (declaration : Declaration) :
    joinAlias? (among.map (·.redirect f)) (declaration.redirect f) =
      joinAlias? among declaration := by
  rw [joinAlias?, joinAlias?, byJoinTable_redirect, renamed_redirect fun _ => rfl,
    given?_redirect fun _ => rfl, given?_redirect fun _ => rfl]

end Disambiguation
end Scaffold
