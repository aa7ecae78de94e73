import Scaffold.Proofs.Disambiguation.Subjects
import Scaffold.Proofs.Entity.Construction

/-!
What the module path does to an entity. It stands before the module of the entity and before the
module that each association is to, and nothing else hangs on it: the passes do not look at modules,
so the names are the same under every path.
-/
namespace Scaffold

def qualify (path moduleName : String) : String := path ++ "." ++ moduleName

/-- A declaration with a module path before the module that it is to. -/
def Declaration.within (path : String) (declaration : Declaration) : Declaration :=
  if declaration.isAssociation then
    { declaration with subject := qualify path declaration.subject }
  else declaration

/-- An entity with a module path before its module and those of its associations. -/
def Entity.within (path : String) (entity : Entity) : Entity where
  table := entity.table
  moduleName := qualify path entity.moduleName
  declarations := entity.declarations.map (·.within path)

namespace Entity

open Disambiguation

variable {path : String} {schema : Schema} {table : Table}

def qualifyAssociation (path : String) : Kind → String → String
  | .field, type => type
  | _, moduleName => qualify path moduleName

theorem within_eq_redirect (path : String) :
    Declaration.within path = Declaration.redirect (qualifyAssociation path) := by
  funext ⟨kind, name, subject, options⟩
  cases kind <;> rfl

theorem qualified_some (hpath : path ≠ "") (name : String) :
    qualified (some path) name = qualify path (qualified none name) := by
  simp [qualified, qualify]

theorem fields_within (path : String) (table : Table) :
    (fields table).map (·.within path) = fields table := by
  rw [fields, List.map_map]
  rfl

theorem belongsTo_within (hpath : path ≠ "") :
    belongsTo (some path) = fun key => (belongsTo none key).within path := by
  funext key
  simp only [belongsTo, qualified_some hpath]
  rfl

theorem inverse_within (hpath : path ≠ "") (name : String) (source : Table) (key : ForeignKey) :
    inverse (some path) name source key = (inverse none name source key).within path := by
  simp only [inverse, qualified_some hpath]
  split <;> rfl

theorem manyToMany_within (hpath : path ≠ "") (name : String) (join : Table)
    (owning other : ForeignKey) :
    manyToMany (some path) name join owning other =
      (manyToMany none name join owning other).within path := by
  simp only [manyToMany, qualified_some hpath]
  rfl

theorem keyed_within (hpath : path ≠ "") (schema : Schema) (table : Table) :
    keyed (some path) schema table = (keyed none schema table).map (·.within path) := by
  rw [keyed, keyed, List.map_append, List.map_append, fields_within, belongsTo_within hpath]
  simp only [List.map_map, Function.comp_def, inverse_within hpath]

theorem joined_within (hpath : path ≠ "") (schema : Schema) (table : Table) :
    joined (some path) schema table = (joined none schema table).map (·.within path) := by
  simp only [joined, List.map_map, Function.comp_def, manyToMany_within hpath]

theorem byKey_keyed_within (hpath : path ≠ "") (schema : Schema) (table : Table) :
    byKey (keyed (some path) schema table) =
      (byKey (keyed none schema table)).map (·.within path) := by
  rw [keyed_within hpath, within_eq_redirect, byKey_redirect]

theorem toldJoined_within (hpath : path ≠ "") (schema : Schema) (table : Table)
    (declaration : Declaration) :
    toldJoined (some path) schema table (declaration.within path) =
      (toldJoined none schema table declaration).within path := by
  have hmerged : merged (some path) schema table =
      (merged none schema table).map (·.within path) := by
    rw [merged, byKey_keyed_within hpath, joined_within hpath, merged, List.map_append]
  rw [toldJoined, toldJoined, hmerged, within_eq_redirect, joinAlias?_redirect]
  rfl

theorem told_within (hpath : path ≠ "") (schema : Schema) (table : Table) :
    told (some path) schema table = (told none schema table).within path := by
  have hjoined : (joined (some path) schema table).map (toldJoined (some path) schema table) =
      ((joined none schema table).map (toldJoined none schema table)).map (·.within path) := by
    rw [joined_within hpath, List.map_map, List.map_map]
    apply List.map_congr_left
    intro declaration _
    exact toldJoined_within hpath schema table declaration
  simp only [told, Entity.within, qualified_some hpath, byKey_keyed_within hpath, hjoined,
    List.map_append]

/-- A table has the same entity under every module path, but for the path itself before its module
and before the modules that its associations are to. No path and an empty one are the same. -/
theorem build_within (hpath : path ≠ "") (htable : table ∈ schema.tables) :
    ∃ entity, build none schema table.name = .ok entity ∧
      build (some "") schema table.name = .ok entity ∧
      build (some path) schema table.name = .ok (entity.within path) := by
  obtain ⟨found, -, hfound, hname⟩ := Schema.exists_table?_eq htable
  rw [← hname] at hfound ⊢
  refine ⟨told none schema found, build_eq_of_table? hfound, ?_, ?_⟩
  · exact build_eq_of_table? hfound
  · rw [build_eq_of_table? hfound, told_within hpath]

theorem build_within_circle :
    "App" ≠ "" ∧ humans ∈ circle.tables ∧
      ∃ entity, build none circle humans.name = .ok entity ∧
        build (some "") circle humans.name = .ok entity ∧
        build (some "App") circle humans.name = .ok (entity.within "App") := by
  have hpath : "App" ≠ "" := by decide
  have htable : humans ∈ circle.tables := List.mem_cons_self
  have hwithin := build_within hpath htable
  exact ⟨hpath, htable, hwithin⟩

end Entity
end Scaffold
