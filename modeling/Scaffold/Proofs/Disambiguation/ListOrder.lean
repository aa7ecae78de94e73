import Mathlib.Data.List.Perm.Basic
import Scaffold.Proofs.Disambiguation.JoinKeys

/-!
The order in which declarations are listed plays no part in what they are named. Which names collide
is a matter of how often they occur, so among the same declarations in another order each
declaration is given the same alias, and join keys that no pass can read are in the way in either
order. `runAll_alike` says so of a run of passes. Only which of several faults is reported may
differ.
-/
namespace Scaffold

/-- Steps that give results give the same ones in another order, if they are taken in another. -/
theorem exists_mapM_perm {α β ε : Type} {f : α → Except ε β} {l others : List α} {results : List β}
    (h : others.Perm l) (hok : l.mapM f = .ok results) :
    ∃ results', others.mapM f = .ok results' ∧ results'.Perm results := by
  obtain ⟨results', hsteps, hperm⟩ := List.perm_comp_forall₂ h (mapM_eq_ok_iff.1 hok)
  exact ⟨results', mapM_eq_ok_iff.2 hsteps, hperm⟩

namespace Disambiguation

variable {among others : List Declaration}

theorem given?_perm (h : among.Perm others) (alias? : Declaration → Option String) :
    given? among alias? = given? others alias? := by
  funext declaration
  rw [given?, given?, collides_perm h]

theorem renamed_perm (h : among.Perm others) (alias? : Declaration → Option String) :
    renamed among alias? = renamed others alias? := by
  funext declaration
  rw [renamed, renamed, given?_perm h]

theorem map_renamed_perm (h : among.Perm others) (alias? : Declaration → Option String) :
    (among.map (renamed among alias?)).Perm (others.map (renamed others alias?)) := by
  rw [renamed_perm h]
  exact h.map _

theorem byKey_congr (h : among.Perm others) : (byKey among).Perm (byKey others) := by
  have hsame := map_renamed_perm h keyAlias?
  exact (byKey_perm among).trans (hsame.trans (byKey_perm others).symm)

theorem byJoinTable_congr (h : among.Perm others) :
    (byJoinTable among).Perm (byJoinTable others) := by
  rw [byJoinTable_eq_map, byJoinTable_eq_map]
  exact map_renamed_perm h tableAlias?

theorem joinAlias?_perm (h : among.Perm others) : joinAlias? among = joinAlias? others := by
  funext declaration
  rw [joinAlias?, joinAlias?, given?_perm (byJoinTable_congr h), given?_perm h, renamed_perm h]

theorem tellByColumn_perm (h : among.Perm others) : tellByColumn among = tellByColumn others := by
  funext declaration
  rw [tellByColumn, tellByColumn, collides_perm h]

/-- Two passes or runs either give the same declarations, up to their order, or both fail. -/
inductive Alike : Except ContractError (List Declaration) →
    Except ContractError (List Declaration) → Prop
  | ok {told told' : List Declaration} (h : told.Perm told') : Alike (.ok told) (.ok told')
  | error (error error' : ContractError) : Alike (.error error) (.error error')

theorem Alike.bind {told told' : Except ContractError (List Declaration)}
    {next : List Declaration → Except ContractError (List Declaration)} (h : Alike told told')
    (hnext : ∀ {among others : List Declaration}, among.Perm others →
      Alike (next among) (next others)) : Alike (told.bind next) (told'.bind next) := by
  cases h with
  | ok hperm => exact hnext hperm
  | error error error' => exact .error error error'

theorem byJoinColumn_alike (h : among.Perm others) :
    Alike (byJoinColumn among) (byJoinColumn others) := by
  rw [byJoinColumn_eq_mapM, byJoinColumn_eq_mapM, tellByColumn_perm h]
  cases hsteps : others.mapM (tellByColumn others) with
  | ok told' =>
    obtain ⟨told, htold, hperm⟩ := exists_mapM_perm h hsteps
    rw [htold]
    exact .ok hperm
  | error error' =>
    cases hsteps' : among.mapM (tellByColumn others) with
    | error error => exact .error error error'
    | ok told =>
      obtain ⟨told', htold, -⟩ := exists_mapM_perm h.symm hsteps'
      rw [hsteps] at htold
      cases htold

theorem byJoins_alike (h : among.Perm others) : Alike (byJoins among) (byJoins others) :=
  byJoinColumn_alike (byJoinTable_congr h)

theorem run_alike (h : among.Perm others) (pass : Pass) :
    Alike (pass.run among) (pass.run others) := by
  cases pass with
  | byKey => exact .ok (byKey_congr h)
  | byJoinTable => exact .ok (byJoinTable_congr h)
  | byJoinColumn => exact byJoinColumn_alike h
  | byJoins => exact byJoins_alike h

theorem runAll_alike (h : among.Perm others) (passes : List Pass) :
    Alike (runAll passes among) (runAll passes others) := by
  induction passes generalizing among others with
  | nil => exact .ok h
  | cons pass passes ih => exact (run_alike h pass).bind ih

/-- The pass by keys gives the same declarations in whatever order it is given them, and so do the
passes by join tables after it, unless they fail in every order; and so does any run of passes. -/
theorem passes_alike (h : among.Perm others) :
    (byKey among).Perm (byKey others) ∧ Alike (byJoins (byKey among)) (byJoins (byKey others)) ∧
      ∀ passes, Alike (runAll passes among) (runAll passes others) :=
  ⟨byKey_congr h, byJoins_alike (byKey_congr h), runAll_alike h⟩

def tagged (keys : JoinKeys) : Declaration where
  kind := .manyToMany
  name := "tags"
  subject := "App.Tag"
  options := { joinKeys := some keys }

def lone : Declaration := tagged [[.null]]

def blank : Declaration := tagged [[.null], [.null]]

theorem passes_alike_blank :
    [lone, blank].Perm [blank, lone] ∧ (byKey [lone, blank]).Perm (byKey [blank, lone]) ∧
      Alike (byJoins (byKey [lone, blank])) (byJoins (byKey [blank, lone])) ∧
      ∀ passes, Alike (runAll passes [lone, blank]) (runAll passes [blank, lone]) := by
  have hperm : [lone, blank].Perm [blank, lone] := .swap blank lone []
  exact ⟨hperm, passes_alike hperm⟩

example : byJoins (byKey [lone, blank]) = .error (.joinKeyForm "tags") ∧
    byJoins (byKey [blank, lone]) = .error (.joinKeyCount "tags" 1) := by
  decide +kernel

end Disambiguation
end Scaffold
