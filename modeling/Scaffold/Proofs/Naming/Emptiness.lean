import Scaffold.Naming
import Scaffold.Proofs.Inflection.Emptiness

/-!
When names are empty. A column name loses nothing but the ending of keys, so it is empty without it
only if it is this ending. The name of an association is empty only if neither its phrase nor its
base leaves anything.
-/
namespace Scaffold
namespace Naming

variable {phrase base : String}

theorem dropEnding_eq_nil_iff {ending text : List Char} :
    dropEnding ending text = [] ↔ text = [] ∨ text = ending := by
  rw [dropEnding]
  by_cases hsuffix : ending.isSuffixOf text = true
  · rw [if_pos hsuffix]
    obtain ⟨before, rfl⟩ := List.isSuffixOf_iff_suffix.1 hsuffix
    have htake : (before ++ ending).take ((before ++ ending).length - ending.length) = before := by
      simp
    rw [htake]
    constructor
    · rintro rfl
      simp
    · rintro (hnil | hself)
      · exact (List.append_eq_nil_iff.1 hnil).1
      · simpa using hself
  · rw [if_neg hsuffix]
    constructor
    · exact .inl
    · rintro (hnil | rfl)
      · exact hnil
      · simp at hsuffix

theorem stripKeySuffix_eq_empty_iff {column : String} :
    stripKeySuffix column = "" ↔ column = "" ∨ column = "_id" := by
  have hchars : stripKeySuffix column = "" ↔ dropEnding keySuffix.toList column.toList = [] := by
    simp [stripKeySuffix]
  rw [hchars, dropEnding_eq_nil_iff, String.toList_inj, String.toList_eq_nil_iff]
  rfl

theorem eq_or_eq_append_of_stripKeySuffix (column : String) :
    column = stripKeySuffix column ∨ column = stripKeySuffix column ++ keySuffix := by
  by_cases hsuffix : keySuffix.toList.isSuffixOf column.toList = true
  · right
    obtain ⟨before, hbefore⟩ := List.isSuffixOf_iff_suffix.1 hsuffix
    have hstem : (stripKeySuffix column).toList = before := by
      rw [stripKeySuffix, dropEnding, if_pos hsuffix, ← hbefore]
      simp
    rw [← String.toList_inj, String.toList_append, hstem, hbefore]
  · left
    rw [stripKeySuffix, dropEnding, if_neg hsuffix, String.ofList_toList]

theorem endsWithName_empty_iff {name : String} : endsWithName "" name = true ↔ name = "" := by
  have hnot : (separator ++ name).toList.isSuffixOf "".toList = false := by
    simp [separator]
  rw [endsWithName, hnot, Bool.or_false, beq_iff_eq, eq_comm]

theorem associationName_eq_empty_iff :
    associationName phrase base = "" ↔
      stripKeySuffix phrase = "" ∧ Inflection.singular base = "" := by
  rw [associationName, Inflection.plural_eq_empty_iff]
  by_cases hends : endsWithName (stripKeySuffix phrase) (Inflection.singular base) = true
  · rw [if_pos hends]
    constructor
    · intro hphrase
      rw [hphrase] at hends
      exact ⟨hphrase, endsWithName_empty_iff.1 hends⟩
    · exact And.left
  · rw [if_neg hends]
    constructor
    · intro hstem
      simp [separator] at hstem
    · rintro ⟨hphrase, hbase⟩
      rw [hphrase, hbase] at hends
      exact absurd (endsWithName_empty_iff.2 rfl) hends

theorem associationName_by_ne_empty (name table : String) :
    associationName (name ++ "_by") table ≠ "" := by
  intro hempty
  have hphrase := (associationName_eq_empty_iff.1 hempty).1
  rcases stripKeySuffix_eq_empty_iff.1 hphrase with h | h
  · simp at h
  · have hlast := congrArg (fun text : String => text.toList.getLast?) h
    simp at hlast

theorem fieldType_ne_empty {columnType : String} (h : columnType ≠ "") :
    fieldType columnType ≠ "" := by
  rw [fieldType]
  cases hlookup : typeMap.lookup columnType with
  | none => exact h
  | some type =>
    obtain ⟨before, after, htypes, -⟩ := List.lookup_eq_some_iff.1 hlookup
    have hnames : ∀ entry ∈ typeMap, entry.2 ≠ "" := by decide
    exact hnames (columnType, type) (by simp [htypes])

end Naming
end Scaffold
