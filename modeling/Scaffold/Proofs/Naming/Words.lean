import Scaffold.Proofs.Inflection.Words
import Scaffold.Naming

/-!
The words of the names that associations are given. An alias has more words than the base unless the
phrase, without the ending of keys, is the singular of the base, and so only then can it be the base
again.
-/
namespace Scaffold
namespace Naming

variable {column text name base : String}

theorem endsWithName_iff :
    endsWithName text name = true ↔
      text = name ∨ ∃ before, text = before ++ separator ++ name := by
  rw [endsWithName, Bool.or_eq_true, beq_iff_eq, List.isSuffixOf_iff_suffix]
  apply or_congr_right
  constructor
  · rintro ⟨before, hbefore⟩
    refine ⟨String.ofList before, ?_⟩
    rw [← String.toList_inj, ← hbefore]
    simp [String.append_assoc]
  · rintro ⟨before, rfl⟩
    exact ⟨before.toList, by simp [String.append_assoc]⟩

theorem count_append_separator (before text : String) :
    (before ++ separator ++ text).toList.count '_' =
      before.toList.count '_' + 1 + text.toList.count '_' := by
  simp only [separator, String.toList_append, List.count_append]
  rfl

/-- An alias is the base again exactly if the column says no more than the singular of the base, and
the base is the plural of this. -/
theorem associationName_eq_base_iff :
    associationName column base = base ↔
      stripKeySuffix column = Inflection.singular base ∧
        Inflection.plural (Inflection.singular base) = base := by
  rw [associationName]
  constructor
  · intro hsame
    have hwords := congrArg (fun text : String => text.toList.count '_') hsame
    simp only [Inflection.count_plural] at hwords
    by_cases hends : endsWithName (stripKeySuffix column) (Inflection.singular base) = true
    · rw [if_pos hends] at hsame hwords
      rcases endsWithName_iff.1 hends with hstem | ⟨before, hstem⟩
      · rw [hstem] at hsame
        exact ⟨hstem, hsame⟩
      · rw [hstem, count_append_separator, Inflection.count_singular] at hwords
        omega
    · rw [if_neg hends, count_append_separator] at hwords
      omega
  · rintro ⟨hstem, hplural⟩
    rw [if_pos (endsWithName_iff.2 (.inl hstem)), hstem]
    exact hplural

end Naming
end Scaffold
