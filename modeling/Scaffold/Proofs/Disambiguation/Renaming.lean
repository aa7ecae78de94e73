import Scaffold.Proofs.Disambiguation.Collisions

/-!
What the passes do to one declaration of a list. A pass gives an alias to some declarations whose
names collide, so each pass is the map of one function of single declarations, up to the order
that the pass by keys makes. Names alone change: `content`, which is all but the name, stays.
-/
namespace Scaffold

namespace Declaration

/-- A declaration with its name erased. -/
def content (declaration : Declaration) : Kind × String × Options :=
  (declaration.kind, declaration.subject, declaration.options)

/-- A declaration under an alias, if it is given one. -/
def under (declaration : Declaration) (given : Option String) : Declaration :=
  declaration.rename (given.getD declaration.name)

@[simp] theorem content_under (declaration : Declaration) (given : Option String) :
    (declaration.under given).content = declaration.content := rfl
@[simp] theorem kind_under (declaration : Declaration) (given : Option String) :
    (declaration.under given).kind = declaration.kind := rfl
@[simp] theorem subject_under (declaration : Declaration) (given : Option String) :
    (declaration.under given).subject = declaration.subject := rfl
@[simp] theorem options_under (declaration : Declaration) (given : Option String) :
    (declaration.under given).options = declaration.options := rfl
@[simp] theorem name_under (declaration : Declaration) (given : Option String) :
    (declaration.under given).name = given.getD declaration.name := rfl
@[simp] theorem under_none (declaration : Declaration) : declaration.under none = declaration := rfl

theorem under_under (declaration : Declaration) (first second : Option String) :
    (declaration.under first).under second = declaration.under (second.or first) := by
  cases second with
  | none => rfl
  | some name => rfl

theorem Paired.under {declaration : Declaration} (h : declaration.Paired) (given : Option String) :
    (declaration.under given).Paired := h

end Declaration

section Steps

variable {α β ε : Type} {f : α → Except ε β} {x : α} {l : List α} {error : ε}

theorem mapM_cons_of_error (h : f x = .error error) : (x :: l).mapM f = .error error := by
  rw [List.mapM_cons, h]
  rfl

theorem mapM_cons_of_ok {y : β} (h : f x = .ok y) :
    (x :: l).mapM f = (l.mapM f).map (y :: ·) := by
  rw [List.mapM_cons, h]
  cases l.mapM f <;> rfl

/-- Steps of which none fails give the list of what each of them gives. -/
theorem mapM_eq_ok_iff {results : List β} :
    l.mapM f = .ok results ↔ List.Forall₂ (fun x y => f x = .ok y) l results := by
  induction l generalizing results with
  | nil => simp [pure, Except.pure, eq_comm]
  | cons x l ih =>
    rw [List.forall₂_cons_left_iff]
    cases hx : f x with
    | error error => simp [mapM_cons_of_error hx]
    | ok y =>
      simp only [mapM_cons_of_ok hx, ← ih, Except.ok.injEq]
      cases hl : l.mapM f with
      | error error => simp [Except.map]
      | ok rest => simp [Except.map, eq_comm]

theorem mapM_eq_ok_map {g : α → β} (h : ∀ x ∈ l, f x = .ok (g x)) : l.mapM f = .ok (l.map g) := by
  rw [mapM_eq_ok_iff, List.forall₂_map_right_iff, List.forall₂_same]
  exact h

theorem exists_mapM_eq_error_iff :
    (∃ error, l.mapM f = .error error) ↔ ∃ x ∈ l, ∃ error, f x = .error error := by
  induction l with
  | nil => simp [pure, Except.pure]
  | cons x l ih =>
    rw [List.exists_mem_cons_iff]
    cases hx : f x with
    | error error => simp [mapM_cons_of_error hx]
    | ok y =>
      rw [mapM_cons_of_ok hx, ← ih]
      cases l.mapM f <;> simp [Except.map]

theorem mapM_eq_error_iff :
    l.mapM f = .error error ↔ ∃ before x after, l = before ++ x :: after ∧
      (∀ y ∈ before, ∃ z, f y = .ok z) ∧ f x = .error error := by
  constructor
  · intro herror
    induction l with
    | nil => cases herror
    | cons x l ih =>
      cases hx : f x with
      | error first =>
        rw [mapM_cons_of_error hx] at herror
        obtain rfl := Except.error.inj herror
        exact ⟨[], x, l, rfl, by simp, hx⟩
      | ok y =>
        have hrest : l.mapM f = .error error := by
          rw [mapM_cons_of_ok hx] at herror
          cases hl : l.mapM f <;> simp_all [Except.map]
        obtain ⟨before, first, after, rfl, hbefore, hfirst⟩ := ih hrest
        exact ⟨x :: before, first, after, rfl, List.forall_mem_cons.2 ⟨⟨y, hx⟩, hbefore⟩, hfirst⟩
  · rintro ⟨before, x, after, rfl, hbefore, hx⟩
    induction before with
    | nil => exact mapM_cons_of_error hx
    | cons y before ih =>
      obtain ⟨⟨z, hz⟩, hbefore⟩ := List.forall_mem_cons.1 hbefore
      rw [List.cons_append, mapM_cons_of_ok hz, ih hbefore]
      rfl

/-- Of two lists of steps, the first leads to where the second starts. -/
theorem forall₂_comp {α β γ : Type} {R : α → β → Prop} {S : β → γ → Prop} {T : α → γ → Prop}
    (hcomp : ∀ x y z, R x y → S y z → T x z) {first : List α} {middle : List β} {last : List γ}
    (h : List.Forall₂ R first middle) (h' : List.Forall₂ S middle last) :
    List.Forall₂ T first last := by
  induction h generalizing last with
  | nil =>
    cases h'
    exact .nil
  | cons hhead _ ih =>
    obtain _ | ⟨hhead', htail'⟩ := h'
    exact .cons (hcomp _ _ _ hhead hhead') (ih htail')

end Steps

namespace Disambiguation

variable {among : List Declaration} {declaration : Declaration}

def keyAlias? (declaration : Declaration) : Option String :=
  if declaration.kind = .field then none
  else declaration.options.key.map fun column =>
    Naming.associationName column declaration.name

def tableAlias? (declaration : Declaration) : Option String :=
  if declaration.kind = .manyToMany then
    declaration.options.joinTable.map fun table =>
      Naming.associationName (declaration.name ++ "_by") table
  else none

def columnAlias? (declaration : Declaration) : Option String :=
  if declaration.kind = .manyToMany then
    (declaration.options.joinKeys.bind fun keys =>
      (owningColumn declaration.name keys).toOption).map fun column =>
        declaration.name ++ "_by_" ++ column
  else none

/-- An alias is given only to a declaration whose name collides. -/
def given? (among : List Declaration) (alias? : Declaration → Option String)
    (declaration : Declaration) : Option String :=
  if collides among declaration.name then alias? declaration else none

/-- What the pass that gives an alias makes of a declaration among others. -/
def renamed (among : List Declaration) (alias? : Declaration → Option String)
    (declaration : Declaration) : Declaration :=
  declaration.under (given? among alias? declaration)

/-- The alias that a declaration has after the two passes by join tables. -/
def joinAlias? (among : List Declaration) (declaration : Declaration) : Option String :=
  (given? (byJoinTable among) columnAlias? (renamed among tableAlias? declaration)).or
    (given? among tableAlias? declaration)

theorem namedByKey_eq (declaration : Declaration) :
    namedByKey declaration = declaration.under (keyAlias? declaration) := by
  cases hkind : declaration.kind <;> cases hkey : declaration.options.key <;>
    simp [namedByKey, keyAlias?, Declaration.under, hkind, hkey]

theorem namedByJoinTable_eq (declaration : Declaration) :
    namedByJoinTable declaration = declaration.under (tableAlias? declaration) := by
  cases hkind : declaration.kind <;> cases htable : declaration.options.joinTable <;>
    simp [namedByJoinTable, tableAlias?, Declaration.under, hkind, htable]

theorem namedByJoinColumn_eq (h : declaration.Paired) :
    namedByJoinColumn declaration = .ok (declaration.under (columnAlias? declaration)) := by
  cases hkeys : declaration.options.joinKeys with
  | none =>
    cases hkind : declaration.kind <;>
      simp [namedByJoinColumn, columnAlias?, hkind, hkeys]
  | some keys =>
    obtain ⟨first, second, rfl⟩ := h keys hkeys
    have hcolumn : owningColumn declaration.name (.ofPairs first second) = .ok first.1 := rfl
    cases hkind : declaration.kind <;>
      simp [namedByJoinColumn, columnAlias?, Declaration.under, hkind, hkeys, hcolumn, Except.map,
        Except.toOption]

/-- Whatever form the keys of a join table have, a declaration that is named is named by them. -/
theorem eq_under_of_namedByJoinColumn {named : Declaration}
    (h : namedByJoinColumn declaration = .ok named) :
    named = declaration.under (columnAlias? declaration) := by
  cases hkeys : declaration.options.joinKeys with
  | none =>
    cases hkind : declaration.kind <;>
      simp_all [namedByJoinColumn, columnAlias?]
  | some keys =>
    cases hcolumn : owningColumn declaration.name keys <;>
      cases hkind : declaration.kind <;>
        simp_all [namedByJoinColumn, columnAlias?, Declaration.under, Except.map,
          Except.toOption]

theorem renamed_eq_ite (among : List Declaration) (alias? : Declaration → Option String)
    (declaration : Declaration) : renamed among alias? declaration =
      if collides among declaration.name then declaration.under (alias? declaration)
      else declaration := by
  rw [renamed, given?]
  split <;> rfl

theorem byKey_eq_map (declarations : List Declaration) :
    byKey declarations = (inNameOrder declarations).map (renamed declarations keyAlias?) := by
  apply List.map_congr_left
  intro declaration _
  rw [renamed_eq_ite, namedByKey_eq]

theorem byKey_perm (declarations : List Declaration) :
    (byKey declarations).Perm (declarations.map (renamed declarations keyAlias?)) := by
  rw [byKey_eq_map]
  exact (inNameOrder_perm declarations).map _

theorem byJoinTable_eq_map (declarations : List Declaration) :
    byJoinTable declarations = declarations.map (renamed declarations tableAlias?) := by
  apply List.map_congr_left
  intro declaration _
  rw [renamed_eq_ite, namedByJoinTable_eq]

theorem byJoinColumn_eq_map {declarations : List Declaration}
    (h : ∀ declaration ∈ declarations, declaration.Paired) :
    byJoinColumn declarations = .ok (declarations.map (renamed declarations columnAlias?)) := by
  apply mapM_eq_ok_map
  intro declaration hmem
  rw [renamed_eq_ite, namedByJoinColumn_eq (h declaration hmem)]
  split <;> rfl

theorem byJoins_eq_map {declarations : List Declaration}
    (h : ∀ declaration ∈ declarations, declaration.Paired) :
    byJoins declarations = .ok (declarations.map fun declaration =>
      declaration.under (joinAlias? declarations declaration)) := by
  have hpaired : ∀ declaration ∈ byJoinTable declarations, declaration.Paired := by
    intro declaration hmem
    rw [byJoinTable_eq_map] at hmem
    obtain ⟨original, horiginal, rfl⟩ := List.mem_map.1 hmem
    exact h original horiginal
  have htwice : (byJoinTable declarations).map (renamed (byJoinTable declarations) columnAlias?) =
      declarations.map fun declaration =>
        declaration.under (joinAlias? declarations declaration) := by
    conv_lhs => rw [byJoinTable_eq_map, List.map_map]
    apply List.map_congr_left
    intro declaration _
    rw [Function.comp_apply, ← byJoinTable_eq_map, renamed, renamed, Declaration.under_under]
    rfl
  rw [byJoins, byJoinColumn_eq_map hpaired, htwice]

theorem joinAlias?_eq_none (h : declaration.kind ≠ .manyToMany) :
    joinAlias? among declaration = none := by
  have htable : ∀ among, given? among tableAlias? declaration = none := by
    intro among
    simp [given?, tableAlias?, h]
  have hcolumn : ∀ among, given? among columnAlias? declaration = none := by
    intro among
    simp [given?, columnAlias?, h]
  rw [joinAlias?, renamed, htable, Declaration.under_none, hcolumn]
  rfl

end Disambiguation
end Scaffold
