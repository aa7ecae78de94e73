import Scaffold.Proofs.Disambiguation.Separation
import Scaffold.Proofs.Entity.Construction

/-!
When the names of an entity are distinct: exactly if the declarations that the table has alone can
be told apart, and no alias that the passes give is taken. In `archive` two keys have one alias, so
the passes make two names equal that they were to tell apart.
-/
namespace Scaffold
namespace Entity

open Disambiguation

variable {path : Option String} {schema : Schema} {table : Table}

def originals (path : Option String) (schema : Schema) (table : Table) : List Declaration :=
  keyed path schema table ++ joined path schema table

/-- The declarations that a table has alone, with the aliases that they are given in its entity. -/
def labelled (path : Option String) (schema : Schema) (table : Table) : List Labelled :=
  (keyed path schema table).map (fun original =>
      ⟨original, given? (keyed path schema table) keyAlias? original⟩) ++
    (joined path schema table).map fun original =>
      ⟨original, joinAlias? (merged path schema table) original⟩

theorem labelled_original :
    (labelled path schema table).map Labelled.original = originals path schema table := by
  simp [labelled, originals, List.map_map, Function.comp_def]

theorem names_told_perm : (names (told path schema table).declarations).Perm
    ((labelled path schema table).map Labelled.name) := by
  have hnames : (labelled path schema table).map Labelled.name =
      names ((keyed path schema table).map (toldKeyed path schema table) ++
        (joined path schema table).map (toldJoined path schema table)) := by
    simp only [labelled, names, List.map_append, List.map_map]
    rfl
  rw [hnames]
  exact names_perm (told_perm path schema table)

theorem isMarked_of_mem_joined {declaration : Declaration}
    (h : declaration ∈ joined path schema table) : declaration.isMarked = true := by
  obtain ⟨⟨join, owning, other⟩, -, rfl⟩ := List.mem_map.1 h
  rfl

theorem labelled_unmarked {entry : Labelled} (h : entry ∈ labelled path schema table)
    (hunmarked : entry.original.isMarked = false) : entry.alias? = none := by
  rcases List.mem_append.1 h with h | h
  · obtain ⟨original, hmem, rfl⟩ := List.mem_map.1 h
    exact (given?_keyAlias?_eq_none_iff (kind_ne_of_mem_keyed hmem)).2 (.inr hunmarked)
  · obtain ⟨original, hmem, rfl⟩ := List.mem_map.1 h
    rw [isMarked_of_mem_joined hmem] at hunmarked
    cases hunmarked

theorem joinAlias?_ne_none_of_mem {declaration : Declaration}
    (h : declaration ∈ joined path schema table)
    (hcollides : collides (merged path schema table) declaration.name = true) :
    joinAlias? (merged path schema table) declaration ≠ none :=
  joinAlias?_ne_none hcollides (kind_of_mem_joined h) (isMarked_of_mem_joined h)

theorem labelled_kept : (labelled path schema table).Pairwise fun first second =>
    first.alias? = none → second.alias? = none → first.original.name = second.original.name →
      first.original.isMarked = false ∧ second.original.isMarked = false := by
  rw [labelled, List.pairwise_append, List.pairwise_map, List.pairwise_map]
  refine ⟨?_, ?_, ?_⟩
  · rw [List.pairwise_iff_forall_sublist]
    intro first second hsublist hfirst hsecond hname
    have hcollides := collides_of_sublist hsublist hname
    have hmem : first ∈ keyed path schema table := hsublist.subset (by simp)
    have hmem' : second ∈ keyed path schema table := hsublist.subset (by simp)
    rw [given?_keyAlias?_eq_none_iff (kind_ne_of_mem_keyed hmem), hcollides] at hfirst
    rw [given?_keyAlias?_eq_none_iff (kind_ne_of_mem_keyed hmem'), ← hname, hcollides] at hsecond
    simpa using And.intro hfirst hsecond
  · rw [List.pairwise_iff_forall_sublist]
    intro first second hsublist hfirst _ hname
    have hcollides := collides_of_sublist (hsublist.trans joined_sublist_merged) hname
    have hmem : first ∈ joined path schema table := hsublist.subset (by simp)
    exact absurd hfirst (joinAlias?_ne_none_of_mem hmem hcollides)
  · intro first hfirst second hsecond hkept hkept' hname
    obtain ⟨original, hmem, rfl⟩ := List.mem_map.1 hfirst
    obtain ⟨other, hother, rfl⟩ := List.mem_map.1 hsecond
    dsimp only at hkept hkept' hname
    have hleft : other.name ∈ names (byKey (keyed path schema table)) := by
      have hold := (names_perm (byKey_keyed_perm path schema table)).mem_iff.2
        (List.mem_map_of_mem (List.mem_map_of_mem hmem))
      rw [toldKeyed, renamed, hkept, Declaration.under_none, hname] at hold
      exact hold
    have hcollides : collides (merged path schema table) other.name = true :=
      collides_append hleft (List.mem_map_of_mem hother)
    exact absurd hkept' (joinAlias?_ne_none_of_mem hother hcollides)

/-- The entity of a table of a valid schema has distinct names exactly if what the table has alone
can be told apart and no alias is taken. -/
theorem collidingNames_eq_nil_iff_separable {document : Document}
    (hschema : Schema.validate document = .ok schema) (path : Option String)
    (htable : table ∈ schema.tables) :
    ∃ entity, build path schema table.name = .ok entity ∧
      (collidingNames entity.declarations = [] ↔ (names entity.declarations).Nodup) ∧
      ((names entity.declarations).Nodup ↔
        Separable (originals path schema table) ∧
          Labelled.AliasesFree (labelled path schema table)) := by
  refine ⟨told path schema table, build_eq (Schema.validate_valid hschema) htable,
    collidingNames_eq_nil_iff, ?_⟩
  rw [names_told_perm.nodup_iff, ← labelled_original]
  exact Labelled.names_nodup_iff (fun _ => labelled_unmarked) labelled_kept

theorem collidingNames_eq_nil_iff_separable_archive :
    Schema.validate archive.toDocument = .ok archive ∧ humans ∈ archive.tables ∧
      ∃ entity, build none archive humans.name = .ok entity ∧
        (collidingNames entity.declarations = [] ↔ (names entity.declarations).Nodup) ∧
        ((names entity.declarations).Nodup ↔
          Separable (originals none archive humans) ∧
            Labelled.AliasesFree (labelled none archive humans)) :=
  ⟨validate_archive, List.mem_cons_self,
    collidingNames_eq_nil_iff_separable validate_archive none List.mem_cons_self⟩

/-- Both associations are given the alias `author_proofs`. -/
theorem archive_separable_collides :
    Schema.validate archive.toDocument = .ok archive ∧ humans ∈ archive.tables ∧
      humans.isJoin = false ∧ Separable (originals none archive humans) ∧
      ∃ entity, build none archive humans.name = .ok entity ∧
        collidingNames entity.declarations = ["author_proofs"] ∧
        ¬(names entity.declarations).Nodup := by
  have hmem : humans ∈ archive.tables := List.mem_cons_self
  have hbuild : build none archive humans.name = .ok (told none archive humans) :=
    build_eq (Schema.validate_valid validate_archive) hmem
  have hcolliding : collidingNames (told none archive humans).declarations =
      ["author_proofs"] := by decide +kernel
  refine ⟨validate_archive, hmem, by decide, ?_, told none archive humans, hbuild, hcolliding, ?_⟩
  · rw [separable_iff_pairwise]
    decide +kernel
  · rw [← collidingNames_eq_nil_iff, hcolliding]
    exact List.cons_ne_nil _ _

end Entity
end Scaffold
