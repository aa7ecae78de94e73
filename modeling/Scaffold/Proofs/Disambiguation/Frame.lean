import Mathlib.Data.List.Perm.Basic
import Scaffold.Proofs.Disambiguation.Renaming

/-!
What a run of passes leaves alone. Whatever the declarations are, each of them comes out of a run
with all but its name, and `KeptBy` says whose names stay too. The declarations stay in their places
as well, unless the pass by keys has put them in the order of their names. `runAll_framed` says this
of a whole run and of every stretch of it, so of every single pass.
-/
namespace Scaffold
namespace Disambiguation

/-- What passes leave of a declaration. -/
structure KeptBy (passes : List Pass) (before after : Declaration) : Prop where
  content : after.content = before.content
  field : before.kind = .field → after.name = before.name
  /-- A declaration with nothing to be named after keeps its name. -/
  unmarked : before.options.key = none → before.options.joinTable = none →
    before.options.joinKeys = none → after.name = before.name
  /-- Only the pass by keys names associations that are by no join table. -/
  keyed : .byKey ∉ passes → before.kind ≠ .manyToMany → after.name = before.name

/-- What passes leave of a list: each declaration, and its place unless one of them sorts. -/
structure Framed (passes : List Pass) (start stop : List Declaration) : Prop where
  kept : ∃ kept, List.Forall₂ (KeptBy passes) start kept ∧ kept.Perm stop
  inPlace : .byKey ∉ passes → List.Forall₂ (KeptBy passes) start stop

variable {passes others : List Pass} {declaration : Declaration}
  {declarations start stop result : List Declaration}

theorem KeptBy.refl (passes : List Pass) (declaration : Declaration) :
    KeptBy passes declaration declaration :=
  ⟨rfl, fun _ => rfl, fun _ _ _ => rfl, fun _ _ => rfl⟩

theorem KeptBy.kind_eq {before after : Declaration} (h : KeptBy passes before after) :
    after.kind = before.kind :=
  congrArg (·.1) h.content

theorem KeptBy.options_eq {before after : Declaration} (h : KeptBy passes before after) :
    after.options = before.options :=
  congrArg (·.2.2) h.content

theorem KeptBy.trans {first second third : Declaration} (h : KeptBy passes first second)
    (h' : KeptBy others second third) : KeptBy (passes ++ others) first third where
  content := h'.content.trans h.content
  field hkind := (h'.field (h.kind_eq.trans hkind)).trans (h.field hkind)
  unmarked hkey htable hkeys := by
    have hsecond := h'.unmarked
    rw [h.options_eq] at hsecond
    exact (hsecond hkey htable hkeys).trans (h.unmarked hkey htable hkeys)
  keyed hpasses hkind := by
    rw [List.mem_append, not_or] at hpasses
    have hkind' : second.kind ≠ .manyToMany := by rwa [h.kind_eq]
    exact (h'.keyed hpasses.2 hkind').trans (h.keyed hpasses.1 hkind)

theorem KeptBy.mono {before after : Declaration} (h : KeptBy passes before after)
    (hsub : .byKey ∈ passes → .byKey ∈ others) : KeptBy others before after where
  content := h.content
  field := h.field
  unmarked := h.unmarked
  keyed hothers := h.keyed fun hpasses => hothers (hsub hpasses)

theorem keptBy_under {given : Option String} (hfield : declaration.kind = .field → given = none)
    (hunmarked : declaration.options.key = none → declaration.options.joinTable = none →
      declaration.options.joinKeys = none → given = none)
    (hkeyed : .byKey ∉ passes → declaration.kind ≠ .manyToMany → given = none) :
    KeptBy passes declaration (declaration.under given) where
  content := rfl
  field hkind := by
    rw [hfield hkind, Declaration.under_none]
  unmarked hkey htable hkeys := by
    rw [hunmarked hkey htable hkeys, Declaration.under_none]
  keyed hpasses hkind := by
    rw [hkeyed hpasses hkind, Declaration.under_none]

theorem keptBy_keyAlias? (hpass : .byKey ∈ passes) (declaration : Declaration) :
    KeptBy passes declaration (declaration.under (keyAlias? declaration)) := by
  apply keptBy_under
  · intro hkind
    simp [keyAlias?, hkind]
  · intro hkey _ _
    simp [keyAlias?, hkey]
  · intro hpasses
    exact absurd hpass hpasses

theorem keptBy_tableAlias? (passes : List Pass) (declaration : Declaration) :
    KeptBy passes declaration (declaration.under (tableAlias? declaration)) := by
  apply keptBy_under
  · intro hkind
    simp [tableAlias?, hkind]
  · intro _ htable _
    simp [tableAlias?, htable]
  · intro _ hkind
    simp [tableAlias?, hkind]

theorem keptBy_columnAlias? (passes : List Pass) (declaration : Declaration) :
    KeptBy passes declaration (declaration.under (columnAlias? declaration)) := by
  apply keptBy_under
  · intro hkind
    simp [columnAlias?, hkind]
  · intro _ _ hkeys
    simp [columnAlias?, hkeys]
  · intro _ hkind
    simp [columnAlias?, hkind]

theorem keptBy_renamed {among : List Declaration} {alias? : Declaration → Option String}
    (h : KeptBy passes declaration (declaration.under (alias? declaration))) :
    KeptBy passes declaration (renamed among alias? declaration) := by
  rw [renamed_eq_ite]
  by_cases hcollides : collides among declaration.name = true
  · rw [if_pos hcollides]
    exact h
  · rw [if_neg hcollides]
    exact KeptBy.refl passes declaration

theorem Framed.of_forall₂ (h : List.Forall₂ (KeptBy passes) start stop) :
    Framed passes start stop :=
  ⟨⟨stop, h, .refl _⟩, fun _ => h⟩

theorem Framed.refl (passes : List Pass) (declarations : List Declaration) :
    Framed passes declarations declarations :=
  .of_forall₂ (List.forall₂_same.2 fun declaration _ => KeptBy.refl passes declaration)

theorem forall₂_keptBy_trans {middle : List Declaration}
    (h : List.Forall₂ (KeptBy passes) start middle)
    (h' : List.Forall₂ (KeptBy others) middle stop) :
    List.Forall₂ (KeptBy (passes ++ others)) start stop :=
  forall₂_comp (fun _ _ _ hfirst hsecond => hfirst.trans hsecond) h h'

theorem Framed.trans {middle : List Declaration} (h : Framed passes start middle)
    (h' : Framed others middle stop) : Framed (passes ++ others) start stop where
  kept := by
    obtain ⟨kept, hkept, hperm⟩ := h.kept
    obtain ⟨kept', hkept', hperm'⟩ := h'.kept
    obtain ⟨last, hlast, hperm''⟩ := List.perm_comp_forall₂ hperm hkept'
    exact ⟨last, forall₂_keptBy_trans hkept hlast, hperm''.trans hperm'⟩
  inPlace hpasses := by
    rw [List.mem_append, not_or] at hpasses
    exact forall₂_keptBy_trans (h.inPlace hpasses.1) (h'.inPlace hpasses.2)

theorem forall₂_byJoinTable (passes : List Pass) (declarations : List Declaration) :
    List.Forall₂ (KeptBy passes) declarations (byJoinTable declarations) := by
  rw [byJoinTable_eq_map, List.forall₂_map_right_iff, List.forall₂_same]
  intro declaration _
  exact keptBy_renamed (keptBy_tableAlias? passes declaration)

theorem forall₂_byJoinColumn (passes : List Pass) (h : byJoinColumn declarations = .ok result) :
    List.Forall₂ (KeptBy passes) declarations result := by
  apply (mapM_eq_ok_iff.1 h).imp
  intro before after hstep
  by_cases hcollides : collides declarations before.name = true
  · rw [if_pos hcollides] at hstep
    rw [eq_under_of_namedByJoinColumn hstep]
    exact keptBy_columnAlias? passes before
  · rw [if_neg hcollides] at hstep
    rw [← Except.ok.inj hstep]
    exact KeptBy.refl passes before

theorem framed_run {pass : Pass} (h : pass.run start = .ok stop) : Framed [pass] start stop := by
  cases pass with
  | byKey =>
    obtain rfl := Except.ok.inj h
    have hkept : List.Forall₂ (KeptBy [.byKey]) start (start.map (renamed start keyAlias?)) := by
      rw [List.forall₂_map_right_iff, List.forall₂_same]
      intro declaration _
      exact keptBy_renamed (keptBy_keyAlias? (by simp) declaration)
    refine ⟨⟨_, hkept, (byKey_perm start).symm⟩, ?_⟩
    intro hnot
    simp at hnot
  | byJoinTable =>
    obtain rfl := Except.ok.inj h
    exact .of_forall₂ (forall₂_byJoinTable [.byJoinTable] start)
  | byJoinColumn => exact .of_forall₂ (forall₂_byJoinColumn [.byJoinColumn] h)
  | byJoins =>
    have htable := forall₂_byJoinTable [.byJoins] start
    have hcolumn := forall₂_byJoinColumn [.byJoins] h
    have hboth := forall₂_keptBy_trans htable hcolumn
    exact .of_forall₂ (hboth.imp fun _ _ hkept => hkept.mono (by simp))

theorem runAll_cons_eq_ok {pass : Pass} (h : runAll (pass :: passes) start = .ok stop) :
    ∃ middle, pass.run start = .ok middle ∧ runAll passes middle = .ok stop := by
  rw [runAll] at h
  cases hstep : pass.run start with
  | error error =>
    rw [hstep] at h
    cases h
  | ok middle =>
    rw [hstep] at h
    exact ⟨middle, rfl, h⟩

theorem runAll_append_eq_ok (h : runAll (passes ++ others) start = .ok stop) :
    ∃ middle, runAll passes start = .ok middle ∧ runAll others middle = .ok stop := by
  induction passes generalizing start with
  | nil => exact ⟨start, rfl, h⟩
  | cons pass passes ih =>
    obtain ⟨next, hstep, hrest⟩ := runAll_cons_eq_ok h
    obtain ⟨middle, hpasses, hothers⟩ := ih hrest
    refine ⟨middle, ?_, hothers⟩
    rw [runAll, hstep]
    exact hpasses

theorem framed_runAll (h : runAll passes start = .ok stop) : Framed passes start stop := by
  induction passes generalizing start with
  | nil =>
    obtain rfl := Except.ok.inj h
    exact Framed.refl [] start
  | cons pass passes ih =>
    obtain ⟨middle, hstep, hrest⟩ := runAll_cons_eq_ok h
    exact (framed_run hstep).trans (ih hrest)

/-- A run leaves of its declarations what its passes leave, and so does every stretch of it. -/
theorem runAll_framed (h : runAll passes declarations = .ok result) :
    Framed passes declarations result ∧
      ∀ before stretch after, passes = before ++ (stretch ++ after) →
        ∃ start stop, runAll before declarations = .ok start ∧
          runAll stretch start = .ok stop ∧ runAll after stop = .ok result ∧
          Framed stretch start stop := by
  refine ⟨framed_runAll h, ?_⟩
  rintro before stretch after rfl
  obtain ⟨start, hbefore, hrest⟩ := runAll_append_eq_ok h
  obtain ⟨stop, hstretch, hafter⟩ := runAll_append_eq_ok hrest
  exact ⟨start, stop, hbefore, hstretch, hafter, framed_runAll hstretch⟩

/-- The pass by join tables names one of them, whose second key has an odd form, and then the pass by
keys meets the other two. -/
def crowd : List Declaration :=
  [{ kind := .manyToMany, name := "posts", subject := "App.Post",
     options := { joinKeys := some [[.text "fan_id", .null], [.null]] } },
   { kind := .hasMany, name := "posts", subject := "App.Post",
     options := { key := some "author_id" } },
   { kind := .field, name := "posts", subject := "string", options := {} }]

def crowdTold : List Declaration :=
  [{ kind := .field, name := "posts", subject := "string", options := {} },
   { kind := .hasMany, name := "author_posts", subject := "App.Post",
     options := { key := some "author_id" } },
   { kind := .manyToMany, name := "posts_by_fan_id", subject := "App.Post",
     options := { joinKeys := some [[.text "fan_id", .null], [.null]] } }]

theorem runAll_framed_crowd :
    runAll [.byJoinColumn, .byKey, .byJoins] crowd = .ok crowdTold ∧
      Framed [.byJoinColumn, .byKey, .byJoins] crowd crowdTold ∧
      ∀ before stretch after, [.byJoinColumn, .byKey, .byJoins] = before ++ (stretch ++ after) →
        ∃ start stop, runAll before crowd = .ok start ∧ runAll stretch start = .ok stop ∧
          runAll after stop = .ok crowdTold ∧ Framed stretch start stop := by
  have hrun : runAll [.byJoinColumn, .byKey, .byJoins] crowd = .ok crowdTold := by decide +kernel
  exact ⟨hrun, runAll_framed hrun⟩

end Disambiguation
end Scaffold
