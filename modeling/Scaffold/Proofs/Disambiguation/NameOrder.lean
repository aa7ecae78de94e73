import Mathlib.Data.List.FinRange
import Mathlib.Data.List.Sort
import Scaffold.Proofs.Disambiguation.Telling

/-!
The order in which the pass by keys lists declarations. It is the one arrangement of the positions
of a list by the units of the names there, and of the positions of one name from the last to the
first. Sorting is stable and starts from the reversed list, which is why equal names come out
reversed. `byKey_arranged` says of every place of the result which position it comes from and what
has become of the declaration.
-/
namespace Scaffold

/-- A stable sort keeps the order of what its relation does not tell apart: if the later elements of
a list stand in some relation to the earlier ones, those that may be swapped still do. -/
theorem pairwise_orderedInsert_of_forall {α : Type} {r s : α → α → Prop} [DecidableRel r]
    [Std.Total r] [IsTrans α r] {a : α} {l : List α} (ha : ∀ b ∈ l, s a b)
    (h : l.Pairwise fun b c => r b c ∧ (r c b → s b c)) :
    (l.orderedInsert r a).Pairwise fun b c => r b c ∧ (r c b → s b c) := by
  induction l with
  | nil => exact List.pairwise_singleton _ a
  | cons b l ih =>
    obtain ⟨hb, hl⟩ := List.pairwise_cons.1 h
    by_cases hab : r a b
    · rw [List.orderedInsert_cons_of_le r l hab]
      refine List.pairwise_cons.2 ⟨?_, h⟩
      intro c hc
      refine ⟨?_, fun _ => ha c hc⟩
      rcases List.mem_cons.1 hc with rfl | hc
      · exact hab
      · exact IsTrans.trans _ _ _ hab (hb c hc).1
    · rw [List.orderedInsert_of_not_le r l hab]
      refine List.pairwise_cons.2 ⟨?_, ih (fun c hc => ha c (List.mem_cons_of_mem b hc)) hl⟩
      intro c hc
      rcases (List.mem_orderedInsert r).1 hc with rfl | hc
      · exact ⟨(total_of r _ _).resolve_left hab, fun hca => absurd hca hab⟩
      · exact hb c hc

theorem pairwise_insertionSort_of_pairwise {α : Type} (r : α → α → Prop) {s : α → α → Prop}
    [DecidableRel r] [Std.Total r] [IsTrans α r] {l : List α} (h : l.Pairwise s) :
    (l.insertionSort r).Pairwise fun b c => r b c ∧ (r c b → s b c) := by
  induction l with
  | nil => exact List.Pairwise.nil
  | cons a l ih =>
    obtain ⟨ha, hl⟩ := List.pairwise_cons.1 h
    refine pairwise_orderedInsert_of_forall ?_ (ih hl)
    intro b hb
    exact ha b ((List.mem_insertionSort r).1 hb)

namespace Disambiguation

variable {declarations : List Declaration}

/-- A position comes before another if its name is less by its units, or is the same name later. -/
def Precedes (declarations : List Declaration) (first second : Fin declarations.length) : Prop :=
  Text.units (declarations.get first).name < Text.units (declarations.get second).name ∨
    (declarations.get first).name = (declarations.get second).name ∧ second < first

/-- The positions of a list, each once, in the order of their names. -/
structure Arranged (declarations : List Declaration) (order : List (Fin declarations.length)) :
    Prop where
  perm : order.Perm (List.finRange declarations.length)
  sorted : order.Pairwise (Precedes declarations)

theorem Precedes.asymm {first second : Fin declarations.length}
    (h : Precedes declarations first second) : ¬Precedes declarations second first := by
  rcases h with hless | ⟨hname, hlater⟩
  · rintro (hless' | ⟨hname, -⟩)
    · exact List.lt_asymm hless hless'
    · rw [hname] at hless
      exact List.lt_irrefl _ hless
  · rintro (hless | ⟨-, hlater'⟩)
    · rw [hname] at hless
      exact List.lt_irrefl _ hless
    · exact lt_asymm hlater hlater'

theorem Arranged.eq {order other : List (Fin declarations.length)}
    (h : Arranged declarations order) (h' : Arranged declarations other) : order = other := by
  apply List.Perm.eq_of_pairwise ?_ h.sorted h'.sorted (h.perm.trans h'.perm.symm)
  intro first second _ _ hbefore hafter
  exact absurd hafter hbefore.asymm

def NameLe (declarations : List Declaration) (first second : Fin declarations.length) : Prop :=
  Text.unitsLe (declarations.get first).name (declarations.get second).name = true

instance : DecidableRel (NameLe declarations) :=
  fun _ _ => inferInstanceAs (Decidable (_ = true))

instance : Std.Total (NameLe declarations) where
  total _ _ := by
    rw [NameLe, NameLe, ← Bool.or_eq_true]
    exact Text.unitsLe_total _ _

instance : IsTrans _ (NameLe declarations) where
  trans _ _ _ := Text.unitsLe_trans

/-- The positions of a list, sorted by their names from the last position on. -/
def arrangement (declarations : List Declaration) : List (Fin declarations.length) :=
  (List.finRange declarations.length).reverse.insertionSort (NameLe declarations)

theorem insert_eq_orderedInsert (declaration : Declaration) (sorted : List Declaration) :
    insert declaration sorted = sorted.orderedInsert
      (fun first second => Text.unitsLe first.name second.name = true) declaration := by
  induction sorted with
  | nil => rfl
  | cons other rest ih => rw [insert, List.orderedInsert_cons, ih]

theorem inNameOrder_eq_insertionSort (declarations : List Declaration) :
    inNameOrder declarations = declarations.reverse.insertionSort
      fun first second => Text.unitsLe first.name second.name = true := by
  rw [inNameOrder, List.insertionSort, List.foldr_reverse]
  congr 1
  funext sorted declaration
  exact insert_eq_orderedInsert declaration sorted

theorem inNameOrder_eq_map (declarations : List Declaration) :
    inNameOrder declarations = (arrangement declarations).map declarations.get := by
  have hpositions : declarations.reverse =
      (List.finRange declarations.length).reverse.map declarations.get := by
    rw [List.map_reverse]
    exact congrArg List.reverse (List.map_getElem_finRange declarations).symm
  conv_lhs => rw [inNameOrder_eq_insertionSort, hpositions]
  symm
  apply List.map_insertionSort
  intro first _ second _
  exact Iff.rfl

theorem arranged_arrangement (declarations : List Declaration) :
    Arranged declarations (arrangement declarations) where
  perm := (List.perm_insertionSort _ _).trans (List.reverse_perm _)
  sorted := by
    have hlast : (List.finRange declarations.length).reverse.Pairwise
        fun first second => second < first :=
      List.pairwise_reverse.2 (List.pairwise_lt_finRange _)
    have hstable := pairwise_insertionSort_of_pairwise (NameLe declarations) hlast
    apply hstable.imp
    rintro first second ⟨hle, htie⟩
    rcases Text.unitsLe_iff.1 hle with hless | hname
    · exact .inl hless
    · refine .inr ⟨hname, htie ?_⟩
      rw [NameLe, hname]
      exact Text.unitsLe_refl _

theorem byKey_eq_map_of_arranged {order : List (Fin declarations.length)}
    (h : Arranged declarations order) :
    byKey declarations =
      order.map fun position => renamed declarations keyAlias? (declarations.get position) := by
  rw [byKey_eq_map, inNameOrder_eq_map, List.map_map, h.eq (arranged_arrangement declarations)]
  rfl

/-- There is one order of the positions by name. The declaration at each place of the result is that
at the position which has this place in the order: under the name after its key, if its name occurs
twice or more, it is an association and it has a key, and else as it is. -/
theorem byKey_arranged (declarations : List Declaration) :
    ∃ order, (∀ other, Arranged declarations other ↔ other = order) ∧
      List.Forall₂
        (fun position told => Told KeyAlias declarations (declarations.get position) told)
        order (byKey declarations) := by
  have horder := arranged_arrangement declarations
  refine ⟨arrangement declarations, ?_, ?_⟩
  · intro other
    constructor
    · exact fun hother => hother.eq horder
    · rintro rfl
      exact horder
  · rw [byKey_eq_map_of_arranged horder, List.forall₂_map_right_iff, List.forall₂_same]
    intro position _
    exact (told_iff fun _ => keyAlias?_eq_some_iff).2 rfl

example : names (byKey [{ kind := .field, name := "～", subject := "string", options := {} },
    { kind := .field, name := "😀", subject := "string", options := {} }]) = ["😀", "～"] := by
  decide +kernel

end Disambiguation
end Scaffold
