import Scaffold.Proofs.Disambiguation.NameOrder
import Scaffold.Proofs.Naming.Words

/-!
A name that two associations have, of which one has a key. The pass by keys leaves the other one its
name and names the one with the key after the column. The two are told apart unless the column says
no more than the singular of their name, of which the name is the plural.
-/
namespace Scaffold
namespace Disambiguation

/-- Two associations that alone have a name, one without a key and one with a key. -/
structure SharedBy (declarations : List Declaration) (name column : String)
    (plain keyed : Fin declarations.length) : Prop where
  only : ∀ position : Fin declarations.length,
    (declarations.get position).name = name ↔ position = plain ∨ position = keyed
  kind_plain : (declarations.get plain).kind ≠ .field
  kind_keyed : (declarations.get keyed).kind ≠ .field
  key_plain : (declarations.get plain).options.key = none
  key_keyed : (declarations.get keyed).options.key = some column

variable {declarations : List Declaration} {name column : String}
  {plain keyed : Fin declarations.length} {order : List (Fin declarations.length)}

theorem SharedBy.name_plain (h : SharedBy declarations name column plain keyed) :
    (declarations.get plain).name = name :=
  (h.only plain).2 (.inl rfl)

theorem SharedBy.name_keyed (h : SharedBy declarations name column plain keyed) :
    (declarations.get keyed).name = name :=
  (h.only keyed).2 (.inr rfl)

theorem SharedBy.ne (h : SharedBy declarations name column plain keyed) : plain ≠ keyed := by
  rintro rfl
  have hkey := h.key_plain
  rw [h.key_keyed] at hkey
  cases hkey

theorem collides_of_lt {first second : Fin declarations.length} (hlt : first < second)
    (hname : (declarations.get first).name = (declarations.get second).name) :
    collides declarations (declarations.get first).name = true := by
  have hpositions : [first, second].Pairwise (· < ·) := by simpa using hlt
  exact collides_of_sublist (List.map_getElem_sublist hpositions) hname

theorem SharedBy.collides (h : SharedBy declarations name column plain keyed) :
    collides declarations name = true := by
  have hname := h.name_plain.trans h.name_keyed.symm
  rcases lt_or_gt_of_ne h.ne with hlt | hgt
  · rw [← h.name_plain]
    exact collides_of_lt hlt hname
  · rw [← h.name_keyed]
    exact collides_of_lt hgt hname.symm

/-- Where a declaration comes to stand, and what it has become there. -/
theorem getElem?_byKey_idxOf (h : Arranged declarations order)
    (position : Fin declarations.length) :
    (byKey declarations)[order.idxOf position]? =
      some (renamed declarations keyAlias? (declarations.get position)) := by
  have hmem : position ∈ order := h.perm.mem_iff.2 (List.mem_finRange position)
  rw [byKey_eq_map_of_arranged h, List.getElem?_map, List.getElem?_idxOf hmem]
  rfl

/-- The association without a key keeps the name. That with a key is named after the column, and
this is the name again exactly if the column without the ending of keys is the singular of the name
and the name is the plural of its singular. -/
theorem byKey_tells_shared_apart (h : SharedBy declarations name column plain keyed)
    (horder : Arranged declarations order) :
    (byKey declarations)[order.idxOf plain]? = some (declarations.get plain) ∧
      (declarations.get plain).name = name ∧
      ∃ told, (byKey declarations)[order.idxOf keyed]? = some told ∧
        told = (declarations.get keyed).rename (Naming.associationName column name) ∧
        (told.name = name ↔ Naming.stripKeySuffix column = Inflection.singular name ∧
          Inflection.plural (Inflection.singular name) = name) := by
  have hplain : keyAlias? (declarations.get plain) = none := by
    rw [keyAlias?, if_neg h.kind_plain, h.key_plain]
    rfl
  have hkeyed : keyAlias? (declarations.get keyed) = some (Naming.associationName column name) :=
    keyAlias?_eq_some_iff.2 ⟨h.kind_keyed, column, h.key_keyed, by rw [h.name_keyed]⟩
  refine ⟨?_, h.name_plain, _, getElem?_byKey_idxOf horder keyed, ?_, ?_⟩
  · rw [getElem?_byKey_idxOf horder, renamed_eq_ite, hplain]
    split <;> rfl
  · rw [renamed_eq_ite, h.name_keyed, if_pos h.collides, hkeyed]
    rfl
  · rw [renamed_eq_ite, h.name_keyed, if_pos h.collides, hkeyed]
    exact Naming.associationName_eq_base_iff

def comments (key : Option String) : Declaration where
  kind := .hasMany
  name := "comments"
  subject := "App.Comment"
  options := { key }

def thread : List Declaration :=
  [comments none, { kind := .hasMany, name := "foos", subject := "App.Foo", options := {} },
    comments (some "alt_comment_id")]

theorem byKey_tells_shared_apart_thread :
    SharedBy thread "comments" "alt_comment_id" ⟨0, by decide⟩ ⟨2, by decide⟩ ∧
      Arranged thread (arrangement thread) ∧
      (byKey thread)[(arrangement thread).idxOf ⟨0, by decide⟩]? = some (comments none) ∧
      (comments none).name = "comments" ∧
      ∃ told, (byKey thread)[(arrangement thread).idxOf ⟨2, by decide⟩]? = some told ∧
        told = (comments (some "alt_comment_id")).rename
          (Naming.associationName "alt_comment_id" "comments") ∧
        (told.name = "comments" ↔
          Naming.stripKeySuffix "alt_comment_id" = Inflection.singular "comments" ∧
            Inflection.plural (Inflection.singular "comments") = "comments") := by
  have hshared : SharedBy thread "comments" "alt_comment_id" ⟨0, by decide⟩ ⟨2, by decide⟩ :=
    ⟨by decide, by decide, by decide, rfl, rfl⟩
  have harranged := arranged_arrangement thread
  exact ⟨hshared, harranged, byKey_tells_shared_apart hshared harranged⟩

def replies : List Declaration := [comments none, comments (some "comment_id")]

/-- The association with the key comes out under the name that it has from the start. -/
theorem replies_not_told_apart :
    SharedBy replies "comments" "comment_id" ⟨0, by decide⟩ ⟨1, by decide⟩ ∧
      byKey replies = [comments (some "comment_id"), comments none] ∧
      ∀ told ∈ byKey replies, told.name = "comments" := by
  have hsame : byKey replies = [comments (some "comment_id"), comments none] := by
    decide +kernel
  refine ⟨⟨by decide, by decide, by decide, rfl, rfl⟩, hsame, ?_⟩
  rw [hsame]
  decide

end Disambiguation
end Scaffold
