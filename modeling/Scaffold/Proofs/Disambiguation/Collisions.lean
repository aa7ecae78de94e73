import Mathlib.Data.List.Nodup
import Scaffold.Disambiguation

/-!
Which names of a list collide. Only how often a name occurs counts, so the order of the list plays
no part, and a list without collisions is one whose names are pairwise distinct.
-/
namespace Scaffold
namespace Disambiguation

variable {declarations others : List Declaration}

@[simp] theorem names_append (declarations others : List Declaration) :
    names (declarations ++ others) = names declarations ++ names others := by
  simp [names]

theorem names_perm (h : declarations.Perm others) : (names declarations).Perm (names others) :=
  h.map _

theorem collides_eq_true_iff {name : String} :
    collides declarations name = true ↔ 1 < (names declarations).count name := by
  simp [collides]

theorem collides_perm (h : declarations.Perm others) (name : String) :
    collides declarations name = collides others name := by
  rw [collides, collides, (names_perm h).count_eq]

theorem collides_of_sublist {first second : Declaration}
    (h : [first, second].Sublist declarations) (hname : first.name = second.name) :
    collides declarations first.name = true := by
  have hnames : [first.name, second.name].Sublist (names declarations) := h.map _
  have hcount := hnames.count_le first.name
  have htwo : [first.name, second.name].count first.name = 2 := by simp [hname]
  rw [collides_eq_true_iff]
  omega

theorem collides_append {name : String} (h : name ∈ names declarations)
    (h' : name ∈ names others) : collides (declarations ++ others) name = true := by
  have hfirst := List.count_pos_iff.2 h
  have hsecond := List.count_pos_iff.2 h'
  rw [collides_eq_true_iff, names_append, List.count_append]
  omega

theorem names_nodup_iff :
    (names declarations).Nodup ↔ ∀ name, collides declarations name = false := by
  rw [List.nodup_iff_count_le_one]
  apply forall_congr'
  intro name
  rw [← Bool.not_eq_true, collides_eq_true_iff]
  omega

theorem insertName_ne_nil (name : String) (sorted : List String) : insertName name sorted ≠ [] := by
  cases sorted with
  | nil => simp [insertName]
  | cons other rest =>
    rw [insertName]
    split
    · simp
    · split <;> simp

theorem collidingNames_eq_nil_iff :
    collidingNames declarations = [] ↔ (names declarations).Nodup := by
  have hfold : ∀ words : List String, words.foldr insertName [] = [] ↔ words = [] := by
    intro words
    cases words with
    | nil => simp
    | cons word words => simp [insertName_ne_nil]
  rw [collidingNames, hfold, List.filter_eq_nil_iff, names_nodup_iff]
  constructor
  · intro h name
    by_cases hmem : name ∈ names declarations
    · simpa using h name hmem
    · simp [collides, List.count_eq_zero_of_not_mem hmem]
  · intro h name _
    simp [h name]

end Disambiguation
end Scaffold
