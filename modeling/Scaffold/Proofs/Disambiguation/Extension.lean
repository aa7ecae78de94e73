import Scaffold.Proofs.Disambiguation.JoinKeys
import Scaffold.Proofs.Inflection.LastWord
import Scaffold.Proofs.Naming.Emptiness
import Scaffold.Proofs.Naming.Words

/-!
The passes by join tables only extend names. The first makes a plural of the name and more words, and
leaves the name out of none of them, because a plural changes nothing before the last underscore; the
second adds words. So each name starts with the one before, and goes on with an underscore if it is
another (`byJoins_lengthens`).
-/
namespace Scaffold
namespace Naming

theorem stripKeySuffix_by (name : String) : stripKeySuffix (name ++ "_by") = name ++ "_by" := by
  rcases eq_or_eq_append_of_stripKeySuffix (name ++ "_by") with h | h
  · exact h.symm
  · have hlast := congrArg (fun text : String => text.toList.getLast?) h
    simp [keySuffix] at hlast

theorem exists_associationName_by (name table : String) :
    ∃ rest, associationName (name ++ "_by") table = name ++ "_" ++ rest := by
  rw [associationName, stripKeySuffix_by]
  have hby : name ++ "_by" = name ++ "_" ++ "by" := by
    rw [String.append_assoc]
    rfl
  by_cases hends : endsWithName (name ++ "_by") (Inflection.singular table) = true
  · rw [if_pos hends, hby]
    exact Inflection.plural_append name "by"
  · rw [if_neg hends]
    obtain ⟨inflected, hplural⟩ := Inflection.plural_append (name ++ "_by") table
    refine ⟨"by" ++ "_" ++ inflected, ?_⟩
    rw [separator, hplural, hby]
    simp only [String.append_assoc]

end Naming

namespace Disambiguation

variable {among : List Declaration} {before middle after : Declaration}

/-- A declaration is as before, or under its name with an underscore and more after it. -/
inductive Extends (before : Declaration) : Declaration → Prop
  | same : Extends before before
  | longer (rest : String) : Extends before (before.rename (before.name ++ "_" ++ rest))

theorem Extends.trans (h : Extends before middle) (h' : Extends middle after) :
    Extends before after := by
  cases h' with
  | same => exact h
  | longer rest =>
    cases h with
    | same => exact .longer rest
    | longer first =>
      have hname : before.name ++ "_" ++ first ++ "_" ++ rest =
          before.name ++ "_" ++ (first ++ "_" ++ rest) := by
        simp only [String.append_assoc]
      rw [Declaration.rename_rename, Declaration.rename_name, hname]
      exact .longer _

theorem Told.extends {Alias : Declaration → String → Prop} (h : Told Alias among before after)
    (halias : ∀ name, Alias before name → ∃ rest, name = before.name ++ "_" ++ rest) :
    Extends before after := by
  cases h with
  | renamed _ hname =>
    obtain ⟨rest, rfl⟩ := halias _ hname
    exact .longer rest
  | kept _ => exact .same

theorem TableAlias.exists_append {name : String} (h : TableAlias before name) :
    ∃ rest, name = before.name ++ "_" ++ rest := by
  obtain ⟨-, table, -, rfl⟩ := h
  exact Naming.exists_associationName_by before.name table

theorem ColumnAlias.exists_append {name : String} (h : ColumnAlias before name) :
    ∃ rest, name = before.name ++ "_" ++ rest := by
  obtain ⟨-, column, table, second, -, rfl⟩ := h
  have hby : before.name ++ "_by_" = before.name ++ "_" ++ "by_" := by
    rw [String.append_assoc]
    rfl
  exact ⟨"by_" ++ column, by rw [hby, String.append_assoc]⟩

theorem forall₂_extends {declarations result : List Declaration}
    (h : byJoins declarations = .ok result) : List.Forall₂ Extends declarations result := by
  obtain ⟨told, htold, htables, -, -, hcolumns⟩ := byJoins_outcome declarations
  refine forall₂_comp (fun _ _ _ hfirst hsecond => ?_) htables (hcolumns result h)
  have hlonger := hfirst.extends fun _ => TableAlias.exists_append
  exact hlonger.trans (hsecond.extends fun _ => ColumnAlias.exists_append)

/-- The name of a declaration starts with the one it had, and if it is another one, it is longer and
has an underscore next. -/
structure Lengthened (before after : Declaration) : Prop where
  starts : before.name.toList <+: after.name.toList
  longer : after ≠ before → before.name.length < after.name.length
  next : after ≠ before → after.name.toList[before.name.length]? = some '_'

theorem Extends.lengthened (h : Extends before after) : Lengthened before after := by
  cases h with
  | same => exact ⟨List.prefix_rfl, fun hne => absurd rfl hne, fun hne => absurd rfl hne⟩
  | longer rest =>
    have hname : (before.name ++ "_" ++ rest).toList =
        before.name.toList ++ '_' :: rest.toList := by
      simp [String.append_assoc]
    refine ⟨⟨'_' :: rest.toList, hname.symm⟩, fun _ => ?_, fun _ => ?_⟩
    · rw [← String.length_toList, ← String.length_toList, Declaration.rename_name, hname,
        List.length_append, List.length_cons]
      omega
    · rw [← String.length_toList, Declaration.rename_name, hname]
      simp

/-- Whenever the passes by join tables succeed, each declaration keeps its name or has one that goes
on from it with an underscore. For neither a plural nor a singular changes a text before its last
underscore. -/
theorem byJoins_lengthens {declarations result : List Declaration}
    (h : byJoins declarations = .ok result) :
    (∀ before last, (∃ inflected, Inflection.plural (before ++ "_" ++ last) =
        before ++ "_" ++ inflected) ∧
      ∃ inflected, Inflection.singular (before ++ "_" ++ last) = before ++ "_" ++ inflected) ∧
    List.Forall₂ Lengthened declarations result := by
  refine ⟨?_, (forall₂_extends h).imp fun _ _ hextends => hextends.lengthened⟩
  intro before last
  exact ⟨Inflection.plural_append before last, Inflection.singular_append before last⟩

def ballots : List Declaration :=
  [{ kind := .manyToMany, name := "Votes_y", subject := "App.Vote",
     options := { joinTable := some "bies", joinKeys := some (.ofPairs ("a_id", "x") ("b", "y")) } },
   { kind := .manyToMany, name := "Votes_y", subject := "App.Vote",
     options := { joinTable := some "bies" } },
   { kind := .hasMany, name := "Votes_y", subject := "App.Vote", options := {} }]

theorem byJoins_lengthens_ballots :
    ∃ result, byJoins ballots = .ok result ∧
      names result = ["Votes_y_bies_by_a_id", "Votes_y_bies", "Votes_y"] ∧
      List.Forall₂ Lengthened ballots result := by
  have hrun : ∃ result, byJoins ballots = .ok result ∧
      names result = ["Votes_y_bies_by_a_id", "Votes_y_bies", "Votes_y"] := by
    refine ⟨ballots.zipWith Declaration.rename
      ["Votes_y_bies_by_a_id", "Votes_y_bies", "Votes_y"], ?_, ?_⟩ <;> decide +kernel
  obtain ⟨result, hresult, hnames⟩ := hrun
  exact ⟨result, hresult, hnames, (byJoins_lengthens hresult).2⟩

end Disambiguation
end Scaffold
